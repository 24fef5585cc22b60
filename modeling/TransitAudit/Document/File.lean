import TransitAudit.Document.Source
import TransitAudit.Files.Resolve

/-!
Reading documents from files.
-/

namespace TransitAudit

/-- The document in a file, named for the file. -/
def Source.read (fs : FileSystem) (path : String) : Except FileFault Source :=
  match fs.readText path with
  | .ok text => .ok ⟨(PathName.name? path).getD path, some path, text⟩
  | .error e => .error e

end TransitAudit
