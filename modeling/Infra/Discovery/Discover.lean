import Infra.Discovery.Collect
import Infra.Discovery.Dependency
import Infra.Discovery.Naming

/-!
# Discovery

Discovery loads the units of a project, collects their exports into a namespace, names its
entities, resolves their references and builds the graph of their dependencies. A unit that cannot
be loaded is reported and the others go on; a name claimed twice or a dangling reference ends the
pass where it is found.

* `Discovery` : what was found; `Discovery.ofUnits` : the pass over units that have been loaded;
* `MemoryUnit`, `Store.discoverMemory` : units that are given as exports or as an error.
-/

namespace Infra

/-- What a discovery found: the namespace, its graph, the units and the failures. -/
structure Discovery where
  entities : Namespace
  dependencies : Graph
  units : List String
  failures : List Failure
  deriving Repr

namespace Discovery

/-- Whether nothing failed. -/
def ok (d : Discovery) : Bool := d.failures.isEmpty

/-- The logger of this part. -/
def logger : String := "tessera.discovery"

/-- A unit with its exports, or with the failure to load it. -/
abbrev Attempt := String × Except Failure (List (String × Value))

/-- The units that were loaded. -/
def loaded (attempts : List Attempt) : List LoadedUnit :=
  attempts.filterMap fun attempt =>
    match attempt.2 with
    | .ok exports => some ⟨attempt.1, exports⟩
    | .error _ => none

/-- The failures to load a unit. -/
def loadFailures (attempts : List Attempt) : List Failure :=
  attempts.filterMap fun attempt =>
    match attempt.2 with
    | .ok _ => none
    | .error failure => some failure

/-- The report of a failure to load a unit. -/
def loadEvent (unit : String) (failure : Failure) : Event :=
  ⟨.warning, logger, "unit_load_failed", [("unit", .text unit), ("error", .text failure.message)]⟩

/-- Collects, resolves and graphs the units that were loaded. A fault that is no failure of names
or references ends the discovery. -/
def ofUnits (s : Store) (root : String) (attempts : List Attempt) :
    Logged (Store × Except Fault Discovery) := do
  let paths := attempts.map (·.1)
  let failures := loadFailures attempts
  match ← s.collect (loaded attempts) with
  | (s, .error (.failed failure)) =>
    if failure.kind.isResolution then
      Logged.tell ⟨.error, logger, "entity_collection_failed",
        [("error", .text failure.message), ("unit", .text (failure.kind.file?.getD ""))]⟩
      pure (s, .ok ⟨[], [], paths, failures ++ [failure]⟩)
    else pure (s, .error (.failed failure))
  | (s, .error fault) => pure (s, .error fault)
  | (s, .ok entities) =>
    match ← s.resolve entities with
    | (s, .error (.failed failure)) =>
      if failure.kind.isResolution then
        Logged.tell ⟨.error, logger, "reference_resolution_failed",
          [("error", .text failure.message)]⟩
        pure (s, .ok ⟨entities, [], paths, failures ++ [failure]⟩)
      else pure (s, .error (.failed failure))
    | (s, .error fault) => pure (s, .error fault)
    | (s, .ok arena) =>
      let graph ← s.dependencyGraph entities (some arena)
      Logged.tell ⟨.info, logger, "discovery_complete",
        [("root", .text root), ("units", .int paths.length), ("entities", .int entities.length),
         ("errors", .int failures.length)]⟩
      pure (s, .ok ⟨entities, graph, paths, failures⟩)

end Discovery

/-! ## Units in memory -/

/-- A unit that is given as its exports, or as the error that loading it raises. -/
inductive MemoryUnit
  | exports (bindings : List (String × Value))
  | raises (error : Raised)
  deriving Repr

namespace MemoryUnit

/-- Units by path. -/
abbrev Units := List (String × MemoryUnit)

/-- The paths of the units, sorted. -/
def Units.find (units : Units) : List String := Text.sorted (units.map (·.1))

/-- The exports of the unit of a path. The cause of a failure is kept unless it would end the
process. -/
def Units.load (units : Units) (path : String) : Except Failure (List (String × Value)) :=
  match units.lookup path with
  | none => .error (.load path "No such unit" none)
  | some (.exports bindings) => .ok bindings
  | some (.raises error) =>
    .error (.load path error.message (if error.isInterrupt then none else some error))

end MemoryUnit

/-- Discovers units in memory, the listed ones or else all of them in order of path. -/
def Store.discoverMemory (s : Store) (units : MemoryUnit.Units) (listed : Option (List String))
    (root : String) : Logged (Store × Except Fault Discovery) := do
  let attempts := (listed.getD units.find).map fun path => (path, units.load path)
  for attempt in attempts do
    match attempt.2 with
    | .ok _ => pure ()
    | .error failure => Logged.tell (Discovery.loadEvent attempt.1 failure)
  Discovery.ofUnits s root attempts

end Infra
