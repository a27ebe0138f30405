import Infra.Store.Key

/-!
# Exports of a unit

A unit exports the names that it lists under `__all__`, or else its public variables that hold no
module.

* `SourceUnit.isPublic` : whether a variable is exported without being listed;
* `SourceUnit.exports` : the exports of a unit with the given variables.
-/

namespace Infra.SourceUnit

/-- Whether a variable is exported without being listed. -/
def isPublic (entry : String × Value) : Bool := !entry.1.startsWith "_" && entry.2 != .module

/-- The items that a list of exported names holds. -/
def listedNames (s : Store) (v : Value) : Except Fault (List Value) :=
  match v with
  | .sequence id => .ok (s.sequence id).items
  | .mapping id => .ok ((s.mapping id).map (·.1))
  | .text text => .ok (text.toList.map fun c => .text (String.singleton c))
  | .bytes bs => .ok (bs.map fun b => .int b.toNat)
  | _ => .error (.wrongType ("'" ++ v.typeName ++ "' object is not iterable"))

/-- The exports of a unit: a listed name that is no variable is passed over. -/
def exports (s : Store) (bound : List (String × Value)) :
    Except Fault (List (String × Value)) := do
  match bound.lookup "__all__" with
  | none | some .null => .ok (bound.filter isPublic)
  | some listed =>
    let names ← listedNames s listed
    match names.find? (!s.isKey ·) with
    | some name => .error (s.notKey name)
    | none => .ok <| Named.ofList <| names.filterMap fun name => do
        let text ← name.text?
        (text, ·) <$> bound.lookup text

end Infra.SourceUnit
