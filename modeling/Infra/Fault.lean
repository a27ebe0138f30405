import Infra.Failure

/-!
# Faults

Why an operation was refused: a failure that builds report, or a misuse of a value.

* `Fault` : the causes; `Fault.label` : the name of the kind in reports;
* `Fault.text` : the text in reports; `Fault.isWorded` : whether the library gives the text itself
  rather than describing what a value could not do;
* `Fault.toRaised` : a fault as a report sees the error of a unit or a check.
-/

namespace Infra

/-- Why an operation was refused. -/
inductive Fault
  /-- A failure that builds report. -/
  | failed (failure : Failure)
  /-- An entity has no such accessor. -/
  | noAccessor (constructor entityType name : String)
  /-- A composite has no such member. -/
  | noMember (composite name : String)
  /-- An entity declares no attribute of that name. -/
  | undeclared (entityType name : String)
  /-- A backend is registered already. -/
  | backendTaken (name : String)
  /-- No module name can be made from a path. -/
  | namelessModule (path : String)
  /-- Nothing is stored under a key. -/
  | missingKey (key : String)
  /-- A value is of the wrong type. -/
  | wrongType (text : String)
  /-- A value has no such field. -/
  | noField (text : String)
  /-- A value is of the right type and out of its domain. -/
  | badValue (text : String)
  /-- A position lies outside a sequence. -/
  | outOfRange (text : String)
  /-- A value is nested too deeply, or inside itself. -/
  | tooDeep
  /-- Bytes are no UTF-8 text. -/
  | notUtf8
  /-- The directory of a file does not exist, or a path is no file. -/
  | noFile (path : String)
  /-- A directory is where a file should be, or the reverse. -/
  | notDirectory (path : String)
  | isDirectory (path : String)
  | alreadyExists (path : String)
  /-- Settings are refused: the place and the message of each finding. -/
  | invalidSettings (findings : List (List String × String))
  /-- A setting that is a list cannot be read. -/
  | unreadableSetting (text : String)
  /-- An error of foreign code. -/
  | raised (error : Raised)
  deriving Repr

namespace Fault

/-- The name of the kind in reports. -/
def label : Fault → String
  | failed failure => failure.kind.label
  | noAccessor .. | noMember .. | noField .. => "AttributeError"
  | undeclared .. | missingKey .. => "KeyError"
  | backendTaken .. | namelessModule .. | badValue .. => "ValueError"
  | wrongType .. => "TypeError"
  | outOfRange .. => "IndexError"
  | tooDeep => "RecursionError"
  | notUtf8 => "UnicodeDecodeError"
  | noFile .. => "FileNotFoundError"
  | notDirectory .. => "NotADirectoryError"
  | isDirectory .. => "IsADirectoryError"
  | alreadyExists .. => "FileExistsError"
  | invalidSettings .. => "ValidationError"
  | unreadableSetting .. => "SettingsError"
  | raised error => error.label

/-- What the fault says, before a report quotes it. -/
def wording : Fault → String
  | failed failure => failure.message
  | noAccessor constructor entityType name =>
    constructor ++ " (" ++ entityType ++ ") has no attribute " ++ Text.quoted name
  | noMember composite name =>
    "composite Composite(" ++ Text.quoted composite ++ ") has no member " ++ Text.quoted name
  | undeclared entityType name =>
    entityType ++ " declares no attribute " ++ Text.quoted name
  | backendTaken name => "Backend '" ++ name ++ "' is already registered"
  | namelessModule path => "Cannot derive a module name for " ++ path
  | missingKey key => key
  | wrongType text | noField text | badValue text | outOfRange text => text
  | tooDeep => "maximum recursion depth exceeded"
  | notUtf8 => "invalid utf-8"
  | noFile path => "[Errno 2] No such file or directory: " ++ Text.quoted path
  | notDirectory path => "[Errno 20] Not a directory: " ++ Text.quoted path
  | isDirectory path => "[Errno 21] Is a directory: " ++ Text.quoted path
  | alreadyExists path => "[Errno 17] File exists: " ++ Text.quoted path
  | invalidSettings _ => ""
  | unreadableSetting text => text
  | raised error => error.text.getD ""

/-- A fault as a report sees the error of a unit or a check. -/
def toRaised (f : Fault) : Raised := ⟨f.label, some f.wording⟩

/-- The text in reports. -/
def text (f : Fault) : String :=
  match f with
  | raised error => error.message
  | _ => f.toRaised.message

/-- Whether the library words the fault itself. -/
def isWorded : Fault → Bool
  | failed .. | noAccessor .. | noMember .. | undeclared .. | backendTaken .. | namelessModule .. =>
    true
  | _ => false

end Fault
end Infra
