import Infra.Store.Key

/-!
# Expansion of composites

A composite exported under a name stands for its members, each an entity named after the composite
and the member, and members that are composites stand for theirs in turn. Properties that a
composite shares are merged into its entities on its first expansion.

* `mergeShared` : the properties of an entity together with the shared ones;
* `Store.expand` : the entities of a composite by full name, and the store afterwards.

A composite is made after its members, so the expansion descends to ever older composites.
-/

namespace Infra

/-- The items of a value that is a list. -/
def Store.list? (s : Store) : Value → Option (List Value)
  | .sequence id =>
    match (s.sequence id).shape with
    | .list => some (s.sequence id).items
    | _ => none
  | _ => none

/-- Merges one property of an entity into the shared ones: an unset property is dropped, two lists
are joined with the shared one first, and otherwise the entity's own value stands. -/
def mergeEntry (merged : List (Value × Value) × Store) (entry : Value × Value) :
    List (Value × Value) × Store :=
  let (entries, s) := merged
  if entry.2 = .null then (entries, s)
  else
    match s.list? entry.2, (s.valueAt? entries entry.1).bind s.list? with
    | some own, some shared =>
      let (joined, s) := s.newSequence .list (shared ++ own)
      (s.insertEntry entries entry.1 joined, s)
    | _, _ => (s.insertEntry entries entry.1 entry.2, s)

/-- The shared properties that are set, followed by the entity's own merged into them. -/
def mergeShared (s : Store) (shared : List (String × Value)) (own : List (Value × Value)) :
    List (Value × Value) × Store :=
  let given := (shared.filter fun entry => entry.2 != .null).map fun entry =>
    (Value.text entry.1, entry.2)
  own.foldl mergeEntry (given, s)

namespace Store

/-- Merges shared properties into an entity. -/
def share (shared : List (String × Value)) (s : Store) (entity : Nat) : Store :=
  let (entries, s) := mergeShared s shared (s.props entity)
  s.setProps entity entries

/-- Applies the shared properties of a composite to its entities, unless that was done before. -/
def applyShared (s : Store) (id : Nat) (entities : List Nat) : Store :=
  let c := s.composite id
  match c.shared with
  | none | some [] => s
  | some shared =>
    if c.applied then s else (entities.foldl (share shared) s).setApplied id true

/-- The entities of a composite by full name, in the order of its members. A name that is reached
twice keeps its first place and its last entity. -/
def expand (s : Store) (label : String) (id : Nat) : List (String × Nat) × Store :=
  let visit (reached : List (String × Nat) × Store) (member : String × Member) :
      List (String × Nat) × Store :=
    let full := label ++ "_" ++ member.1
    match member.2 with
    | .entity e => (Named.insert reached.1 full e, reached.2)
    | .composite inner =>
      if _older : inner < id then
        let (nested, s) := expand reached.2 full inner
        (nested.foldl (fun all entry => Named.insert all entry.1 entry.2) reached.1, s)
      else reached
  let (entities, s) := (s.composite id).members.foldl visit ([], s)
  (entities, s.applyShared id (entities.map (·.2)))
termination_by id

end Store
end Infra
