import Infra.Discovery.Discover
import Infra.Unit.Module
import Infra.Unit.Name
import Infra.Unit.Scan

/-!
# Loading units

Modules are loaded once and then known; one that is refused is forgotten again, while the modules
that it loaded stay. The units of a project are loaded as modules, and a unit that is refused
becomes a failure, unless the error would end the process.

* `Load.runModule` : runs the statements of a file;
* `Load.module` : loads a module after its packages;
* `Load.unit`, `Load.units` : the exports of units, or the failures to load them.

Modules that run inside each other have different files or directories, so the number of these is
a depth that suffices.
-/

namespace Infra.SourceUnit
namespace Load

/-- The number of the first line that is no statement; statements begin on the second line. -/
def malformedLine? (statements : List Statement) : Option Nat :=
  (statements.findIdx? fun statement =>
    match statement with
    | .malformed => true
    | _ => false).map (· + 2)

/-- Runs a file as a module. A module that is refused is forgotten. -/
def runModule (t : FileTree ProjectFile) (load : String → Load Unit) (name : String)
    (package : Option Path) (file : Path) (content : ProjectFile) : Load Unit := do
  match malformedLine? content.statements with
  | some line => refuse (.malformed (file.name?.getD "") line)
  | none =>
    modify (·.add name ⟨[], package, some file, true⟩)
    try
      content.statements.forM (execute t load name)
    catch fault =>
      modify (·.remove name)
      throw fault
    modify (·.modify name fun held => { held with loading := false })

/-- The directory that is searched for a module. -/
def searchDirectory (root : Path) (name : String) : Load Path := do
  match parentName? name with
  | none => pure root
  | some parent =>
    match ← packageDirectory? parent with
    | some directory => pure directory
    | none => refuse (.noPackage name parent)

/-- Loads a module whose packages are loaded, and binds it in the last of them. -/
def oneModule (t : FileTree ProjectFile) (root : Path) (load : String → Load Unit)
    (name : String) : Load Unit := do
  if (← get).isKnown name then pure ()
  else
    let directory ← searchDirectory root name
    match locate? t directory (lastPart name) with
    | none => refuse (.missing name)
    | some (.package inner file content) => runModule t load name (some inner) file content
    | some (.single file content) => runModule t load name none file content
    | some (.plain inner) => modify (·.add name ⟨[], some inner, none, false⟩)
    match parentName? name with
    | some parent => modify (·.bind parent (lastPart name) (.module name))
    | none => pure ()

/-- Loads a module, and first its packages below the last that is known, to some depth. -/
def moduleTo (t : FileTree ProjectFile) (root : Path) : Nat → String → Load Unit
  | 0, _ => throw .tooDeep
  | depth + 1, name => do
    let known ← get
    let missing := ((withParents name).reverse.takeWhile (!known.isKnown ·)).reverse
    missing.forM (oneModule t root (moduleTo t root depth))

/-- Loads a module. -/
def module (t : FileTree ProjectFile) (root : Path) (name : String) : Load Unit :=
  if name.startsWith "." then refuse (.relative name) else moduleTo t root (t.size + 2) name

/-! ## Units -/

/-- Loads a unit as a module and gives the name of the module. -/
def unitModule (t : FileTree ProjectFile) (root path : Path) : Load String := do
  let name ← match moduleName path root with
    | .ok name => pure name
    | .error fault => throw fault
  match takenNames.lookup name with
  | some builtIn => refuse (.taken name builtIn)
  | none => do
    module t root.resolve name
    pure name

/-- The failure to load a unit. -/
def failure (path : Path) (fault : Fault) : Failure :=
  let error := match fault with
    | .raised error => error
    | other => other.toRaised
  .load path.toString (error.label ++ ": " ++ error.message) (some error)

/-- Whether the fault ends the process. -/
def isInterrupt : Fault → Bool
  | .raised error => error.isInterrupt
  | _ => false

/-- The exports of a unit, or the failure to load it. -/
def unit (t : FileTree ProjectFile) (root path : Path) :
    Load (Except Failure (List (String × Value))) := do
  let loaded : Except Fault String ← try
      let name ← unitModule t root path
      pure (.ok name)
    catch fault =>
      if isInterrupt fault then throw fault else pure (.error fault)
  match loaded with
  | .error fault => pure (.error (failure path fault))
  | .ok name =>
    let m ← get
    let bound := (((m.find? name).map (·.bindings)).getD []).map fun entry =>
      (entry.1, entry.2.export)
    match exports m.store bound with
    | .ok bindings => pure (.ok bindings)
    | .error fault => throw fault

/-- The units with their exports, or the failures to load them. In the end their modules are
forgotten, so that they run anew when they are loaded again. -/
def units (t : FileTree ProjectFile) (root : Path) (paths : List Path) :
    Load (List Discovery.Attempt) := do
  try
    paths.mapM fun path => do pure (path.toString, ← unit t root path)
  finally
    modify (·.leave root.resolve)

end Load

/-! ## Discovery of a project -/

/-- The logger of this part. -/
def loadLogger : String := "tessera.discovery.loader"

/-- The reports of an attempt to load a unit. -/
def attemptEvents (root : Path) (attempt : Discovery.Attempt) : Logged Unit :=
  match attempt.2 with
  | .ok bindings =>
    let name := match moduleName (.ofString attempt.1) root with
      | .ok name => name
      | .error _ => ""
    Logged.tell ⟨.debug, loadLogger, "unit_loaded",
      [("unit", .text attempt.1), ("module", .text name), ("exports", .int bindings.length)]⟩
  | .error failure => Logged.tell (Discovery.loadEvent attempt.1 failure)

/-- Discovers the units below a directory. -/
def discover (settings : Settings) (t : FileTree ProjectFile) (s : Store) (root : Path) :
    Logged (Store × Except Fault Discovery) := do
  let paths ← find settings t root
  match (Load.units t root paths).run (.start s) with
  | .error fault m => pure (m.store, .error fault)
  | .ok attempts m => do
    attempts.forM (attemptEvents root)
    Discovery.ofUnits m.store root.toString attempts

end Infra.SourceUnit
