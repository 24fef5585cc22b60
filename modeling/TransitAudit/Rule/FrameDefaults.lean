import TransitAudit.Document.Places
import TransitAudit.Rule.Naming
import TransitAudit.Rule.TimeZone

/-!
The defaults of a frame: its locale has to name a known language and known time zones. All parts of
the locale may be missing or blank.
-/

namespace TransitAudit

def missingFrameDefaults : Finding :=
  Finding.notFound "Document is missing element <FrameDefaults />"

/-- The first node at a path, if there is one. -/
def firstAt? (n : Node) (path : String) : Except AuditError (Option Node) :=
  match n.first path with
  | .ok found => .ok (some found)
  | .error e => if e.isNotFound then .ok none else .error (.ofNode e)

/-- The two-letter codes of languages. -/
def languageCodes : List String :=
  ["aa", "ab", "ae", "af", "ak", "am", "an", "ar", "as", "av", "ay", "az", "ba", "be", "bg",
    "bh", "bi", "bm", "bn", "bo", "br", "bs", "ca", "ce", "ch", "co", "cr", "cs", "cu", "cv",
    "cy", "da", "de", "dv", "dz", "ee", "el", "en", "eo", "es", "et", "eu", "fa", "ff", "fi",
    "fj", "fo", "fr", "fy", "ga", "gd", "gl", "gn", "gu", "gv", "ha", "he", "hi", "ho", "hr",
    "ht", "hu", "hy", "hz", "ia", "id", "ie", "ig", "ii", "ik", "io", "is", "it", "iu", "ja",
    "jv", "ka", "kg", "ki", "kj", "kk", "kl", "km", "kn", "ko", "kr", "ks", "ku", "kv", "kw",
    "ky", "la", "lb", "lg", "li", "ln", "lo", "lt", "lu", "lv", "mg", "mh", "mi", "mk", "ml",
    "mn", "mr", "ms", "mt", "my", "na", "nb", "nd", "ne", "ng", "nl", "nn", "no", "nr", "nv",
    "ny", "oc", "oj", "om", "or", "os", "pa", "pi", "pl", "ps", "pt", "qu", "rm", "rn", "ro",
    "ru", "rw", "sa", "sc", "sd", "se", "sg", "si", "sk", "sl", "sm", "sn", "so", "sq", "sr",
    "ss", "st", "su", "sv", "sw", "ta", "te", "tg", "th", "ti", "tk", "tl", "tn", "to", "tr",
    "ts", "tt", "tw", "ty", "ug", "uk", "ur", "uz", "ve", "vi", "vo", "wa", "wo", "xh", "yi",
    "yo", "za", "zh", "zu"]

def isLanguage (code : String) : Bool :=
  languageCodes.contains code

/-- A sign and one or two digits. -/
def isTimeZoneOffset (text : String) : Bool :=
  match text.toList with
  | sign :: digits =>
    (sign == '+' || sign == '-') && (digits.length == 1 || digits.length == 2) &&
      digits.all Text.isDecimalDigit
  | [] => false

/-- The parts of a locale with what each of them may hold, in the order of the findings. -/
def localeChecks : List (String × (String → Bool)) :=
  [("TimeZoneOffset", isTimeZoneOffset), ("TimeZone", isTimeZone),
    ("SummerTimeZoneOffset", isTimeZoneOffset), ("SummerTimeZone", isTimeZone),
    ("DefaultLanguage", isLanguage)]

def localeFindings (n : Node) (element : String) (accepts : String → Bool) :
    Except AuditError (List Finding) := do
  match (← n.stringAt? element).map Text.trimmed with
  | none => return []
  | some value =>
    if value.isEmpty || accepts value then return []
    return [(inconsistency n s!"Invalid <{element} /> in <FrameDefaults />").withExtra
      "value" (.string value)]

/-- Checks the locale of the first frame defaults. -/
def frameDefaultsLocaleCheck (root : Node) : Except AuditError (List Finding) := do
  match ← firstAt? root frameDefaultsPath with
  | none => return [missingFrameDefaults]
  | some frameDefaults =>
    match ← firstAt? frameDefaults "DefaultLocale" with
    | none => return []
    | some locale =>
      return (← localeChecks.mapM fun (element, accepts) =>
        localeFindings locale element accepts).flatten

end TransitAudit
