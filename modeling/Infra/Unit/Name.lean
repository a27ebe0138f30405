import Infra.Path
import Infra.Text.Glob

/-!
# Names of source units

* `SourceUnit.isTest` : whether a file name is one of a test unit;
* `SourceUnit.moduleName` : the dotted name of the module that a unit is.

A module is named after its path below the root, with the last dotted part of the file name
dropped; the initial unit of a package is named after its directory.
-/

namespace Infra.SourceUnit

/-- The file patterns of test units, unless the settings have others. -/
def standardTestPatterns : List String := ["test_*.py", "*_test.py", "conftest.py"]

/-- Whether the file name is an instance of one of the patterns. -/
def isTest (patterns : List String) (name : String) : Bool :=
  patterns.any fun pattern => Text.Glob.holds pattern name

/-- The dotted name of the module of a unit below a root. -/
def moduleName (path root : Path) : Except Fault String :=
  match path.resolve.relativeTo? root.resolve with
  | none => .error (.badValue (Text.quoted path.resolve.toString ++ " is not in the subpath of "
      ++ Text.quoted root.resolve.toString
      ++ " OR one path is relative and the other is absolute."))
  | some [] => .error (.badValue "PosixPath('.') has an empty name")
  | some names =>
    let parts := Path.withoutSuffix names
    let parts := if parts.getLast? == some "__init__" then parts.dropLast else parts
    if parts.isEmpty then .error (.namelessModule path.toString)
    else .ok (String.intercalate "." parts)

end Infra.SourceUnit
