import Infra.Composite
import Infra.Log.Event
import Infra.Namespace

/-!
# Collecting exports into a namespace

The exports of loaded units become one namespace: entities and outputs under their export names,
composites as their entities, all else is left out. An object that is exported again under another
name keeps its first one, and two objects under one name are refused.

* `LoadedUnit` : the exports of one unit;
* `Collection.insert` : one claim of a name;
* `Collection.addExport`, `Store.collect` : one export, and all units in order.
-/

namespace Infra

/-- The exports of a unit that was loaded. -/
structure LoadedUnit where
  path : String
  exports : List (String × Value)
  deriving Repr

/-- A namespace in the making, with the composites that were expanded by export name. -/
structure Collection where
  entries : Namespace
  expanded : List (String × Nat)
  deriving Repr

namespace Collection

def empty : Collection := ⟨[], []⟩

/-- The name under which an object stands in the namespace. -/
def nameOf? (c : Collection) (v : Value) : Option String :=
  (c.entries.find? fun entry => entry.2 == v).map (·.1)

/-- The failure of a second object under a name; `origin` is the composite it comes from. -/
def refusal (name unit : String) (origin : Option String) : Failure :=
  let detail := match origin with
    | some composite => " from composite expansion of \"" ++ composite ++ "\""
    | none => ""
  .duplicate name unit
    (some ("Duplicate entity name \"" ++ name ++ "\"" ++ detail ++ " found in " ++ unit))

/-- The logger of this part. -/
def logger : String := "tessera.discovery.collect"

/-- Claims a name for an object. -/
def insert (c : Collection) (name : String) (v : Value) (unit : String) (origin : Option String) :
    Logged (Except Fault Collection) :=
  match c.entries.lookup name with
  | some held =>
    if held == v then pure (.ok c) else pure (.error (.failed (refusal name unit origin)))
  | none =>
    match c.nameOf? v with
    | some first => do
      Logged.tell ⟨.debug, logger, "entity_alias_skipped",
        [("name", .text name), ("entity", .text first), ("unit", .text unit)]⟩
      pure (.ok c)
    | none => pure (.ok { c with entries := c.entries ++ [(name, v)] })

/-- Claims names for objects one after the other, up to the first refusal. -/
def insertAll (unit : String) (origin : Option String) :
    Collection → List (String × Value) → Logged (Except Fault Collection)
  | c, [] => pure (.ok c)
  | c, (name, v) :: rest => do
    match ← c.insert name v unit origin with
    | .ok c => insertAll unit origin c rest
    | .error fault => pure (.error fault)

/-- Whether an export has a place in the namespace as it is. -/
def isClaim : Value → Bool
  | .entity _ | .output _ => true
  | _ => false

/-- Adds one export. A composite that was expanded under the same name before is passed over. -/
def addExport (c : Collection) (s : Store) (unit name : String) (v : Value) :
    Logged (Store × Except Fault Collection) := do
  match v with
  | .composite id =>
    if c.expanded.lookup name = some id then pure (s, .ok c)
    else
      let (entities, s) := s.expand name id
      let claims := entities.map fun entry => (entry.1, Value.entity entry.2)
      let c := { c with expanded := (name, id) :: c.expanded }
      pure (s, ← insertAll unit (some name) c claims)
  | _ =>
    if isClaim v then pure (s, ← c.insert name v unit none) else pure (s, .ok c)

/-- Adds exports one after the other, up to the first refusal. -/
def addExports (unit : String) :
    Collection → Store → List (String × Value) → Logged (Store × Except Fault Collection)
  | c, s, [] => pure (s, .ok c)
  | c, s, (name, v) :: rest => do
    match ← c.addExport s unit name v with
    | (s, .ok c) => addExports unit c s rest
    | refused => pure refused

/-- Adds the exports of units one after the other, up to the first refusal. -/
def addUnits : Collection → Store → List LoadedUnit → Logged (Store × Except Fault Collection)
  | c, s, [] => pure (s, .ok c)
  | c, s, unit :: rest => do
    match ← addExports unit.path c s unit.exports with
    | (s, .ok c) => addUnits c s rest
    | refused => pure refused

end Collection

/-- The namespace of the exports of units, in the order of the units. -/
def Store.collect (s : Store) (units : List LoadedUnit) :
    Logged (Store × Except Fault Namespace) := do
  match ← Collection.addUnits .empty s units with
  | (s, .ok c) =>
    Logged.tell ⟨.debug, Collection.logger, "entities_collected", [("count", .int c.entries.length)]⟩
    pure (s, .ok c.entries)
  | (s, .error fault) => pure (s, .error fault)

end Infra
