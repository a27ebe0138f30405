import Infra.Store.Key

/-!
# Rules for entities

A rule looks at one declared entity and says whether it is valid.

* `Verdict`, `Rule` : the result of a rule, and a rule;
* `validate` : one verdict per rule;
* `Rule.requireProp` : the rule that an entity has a property.
-/

namespace Infra

/-- The result of a rule. -/
structure Verdict where
  valid : Bool
  message : Option String
  context : List (String × Datum)
  deriving Repr

/-- A rule for one entity. -/
structure Rule where
  id : String
  judge : Store → Nat → Verdict

/-- The verdicts of rules on an entity, in order. -/
def validate (s : Store) (entity : Nat) (rules : List Rule) : List Verdict :=
  rules.map fun rule => rule.judge s entity

/-- The rule that an entity has a property under a key. -/
def Rule.requireProp (id key message : String) : Rule where
  id := id
  judge s entity :=
    match s.valueAt? (s.props entity) (.text key) with
    | some _ => ⟨true, none, []⟩
    | none => ⟨false, some message, [("key", .text key)]⟩

end Infra
