import Infra.Proofs.Entries

/-!
# Trees of values

* `Datum.BuiltOf` : trees of lists and of tables under different texts, with some leaves;
  `Datum.UnderTexts` : such trees with any leaves;
* `Datum.unified` : the tree with one number that is none in place of all of them, which is what a
  document tells of the tree; `Datum.BuiltOf.unified_eq` : it is the tree itself where the tree has
  no other such number.
-/

namespace Infra

/-- A tree of lists and of tables under different texts, whose leaves have a property. -/
inductive Datum.BuiltOf (P : Value → Prop) : Datum → Prop
  | leaf {v : Value} : P v → BuiltOf P (.leaf v)
  | list {items : List Datum} : (∀ item ∈ items, BuiltOf P item) → BuiltOf P (.list items)
  | record {entries : List (String × Datum)} : (entries.map (·.1)).Nodup →
    (∀ entry ∈ entries, BuiltOf P entry.2) → BuiltOf P (.record entries)

theorem Datum.BuiltOf.mono {P Q : Value → Prop} {d : Datum} (built : d.BuiltOf P)
    (sub : ∀ v, P v → Q v) : d.BuiltOf Q := by
  induction built with
  | leaf own => exact .leaf (sub _ own)
  | list _ ih => exact .list ih
  | record nodup _ ih => exact .record nodup ih

/-- Settings under texts make a table of their values. -/
theorem Datum.BuiltOf.ofList {P : Value → Prop} {settings : List (String × Datum)}
    (each : ∀ setting ∈ settings, setting.2.BuiltOf P) :
    (Datum.table (Entries.ofList (Entries.ofNamed settings))).BuiltOf P := by
  rw [Entries.ofList_ofNamed]
  exact .record (Named.nodup_ofList settings)
    fun setting mem => each setting (Named.mem_of_mem_ofList mem)

/-- A tree of lists and of tables under different texts. -/
abbrev Datum.UnderTexts (d : Datum) : Prop := d.BuiltOf fun _ => True

open Decimal in
/-- The value, or the standard number that is none in place of any such number. -/
def Value.unified : Value → Value
  | .float x => .float (if x.parts = .notANumber then .notANumber else x)
  | v => v

namespace Datum

mutual

/-- The tree with one number that is none in place of all of them. -/
def unified : Datum → Datum
  | leaf v => leaf v.unified
  | list items => list (unifiedItems items)
  | table entries => table (unifiedEntries entries)

/-- The items with one number that is none in place of all of them. -/
def unifiedItems : List Datum → List Datum
  | [] => []
  | item :: rest => item.unified :: unifiedItems rest

/-- The entries with one number that is none in place of all of them. -/
def unifiedEntries : List (Value × Datum) → List (Value × Datum)
  | [] => []
  | (key, value) :: rest => (key, value.unified) :: unifiedEntries rest

end

theorem unifiedItems_eq (items : List Datum) : unifiedItems items = items.map unified := by
  induction items with
  | nil => rfl
  | cons item rest ih => rw [unifiedItems, ih, List.map_cons]

theorem unifiedEntries_eq (entries : List (Value × Datum)) :
    unifiedEntries entries = entries.map fun entry => (entry.1, entry.2.unified) := by
  induction entries with
  | nil => rfl
  | cons entry rest ih => rw [unifiedEntries, ih, List.map_cons]

theorem lookup_unifiedEntries (entries : List (Value × Datum)) (key : Value) :
    (unifiedEntries entries).lookup key = (entries.lookup key).map unified := by
  induction entries with
  | nil => rfl
  | cons entry rest ih =>
    rw [unifiedEntries, List.lookup_cons, List.lookup_cons, ih]
    cases key == entry.1 <;> rfl

open Decimal in
theorem isFalsyScalar_unified (v : Value) : v.unified.isFalsyScalar = v.isFalsyScalar := by
  cases v with
  | float x =>
    by_cases none : x.parts = .notANumber
    · have zero : x.isZero = false := by
        rw [Binary64.isZero, Binary64.toInt?, none]
        rfl
      rw [Value.unified, if_pos none]
      exact Eq.trans (by decide) zero.symm
    · rw [Value.unified, if_neg none]
  | _ => rfl

theorem isFalsy_unified (d : Datum) : d.unified.isFalsy = d.isFalsy := by
  cases d with
  | leaf v => exact isFalsyScalar_unified v
  | list items => cases items <;> rfl
  | table entries => cases entries <;> rfl

/-- A tree whose leaves stay is the same. -/
theorem BuiltOf.unified_eq {d : Datum} (built : d.BuiltOf fun v => v.unified = v) :
    d.unified = d := by
  induction built with
  | leaf same => exact congrArg Datum.leaf same
  | list _ ih =>
    rw [unified, unifiedItems_eq]
    exact congrArg Datum.list ((List.map_congr_left ih).trans (List.map_id _))
  | @record entries _ _ ih =>
    rw [Datum.record, unified, unifiedEntries_eq, List.map_map]
    refine congrArg Datum.table (List.map_congr_left fun entry mem => ?_)
    exact congrArg (Prod.mk (Value.text entry.1)) (ih entry mem)

end Datum
end Infra
