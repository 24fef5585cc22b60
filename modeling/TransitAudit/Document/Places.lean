/-!
Where things stand in a document, as paths from its root.
-/

namespace TransitAudit

def basePath : String := "."

def dataObjectsPath : String := "./dataObjects"

def framesPath : String := "./dataObjects/CompositeFrame/frames"

def frameDefaultsPath : String := "./dataObjects/CompositeFrame/FrameDefaults"

end TransitAudit
