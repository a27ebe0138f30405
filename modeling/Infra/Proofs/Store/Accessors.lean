import Infra.Proofs.Expr.Stable
import Infra.Proofs.Store.Names

/-!
# Accessors lead to their entity

* `Store.OwnsAccessors` : the accessors of an entity refer to the entity itself;
* `ownsAccessors_initial`, `OwnsAccessors.newEntity` : so it is from the first entity on;
* `OwnsAccessors.of_tables`, `OwnsAccessors.newReference`, `SameButNames.ownsAccessors` : other
  objects and names do not change it;
* `stable_ownsAccessors` : no program changes it.
-/

namespace Infra
namespace Store

variable {s t : Store}

/-- The accessors of an entity refer to the entity itself. -/
def OwnsAccessors (s : Store) : Prop :=
  ∀ id, ∀ own ∈ (s.entity id).accessors, (s.reference own.2).parent = handle id

theorem ownsAccessors_initial : initial.OwnsAccessors := by
  intro id own mem
  have none : initial.entity id = default := get_eq_default (Nat.zero_le id)
  rw [none] at mem
  cases mem

theorem OwnsAccessors.of_tables (h : s.OwnsAccessors) (entities : t.entities = s.entities)
    (references : t.references = s.references) : t.OwnsAccessors := by
  unfold OwnsAccessors entity reference
  rw [entities, references]
  exact h

theorem SameButNames.ownsAccessors (same : SameButNames s t) (h : s.OwnsAccessors) :
    t.OwnsAccessors := by
  intro id own mem
  rw [same.accessors] at mem
  rw [same.parent]
  exact h id own mem

theorem lt_of_parent_eq_handle {ref id : Nat} (h : (s.reference ref).parent = handle id) :
    ref < s.references.size := by
  refine Nat.lt_of_not_le fun unmade => ?_
  have none : s.reference ref = default := get_eq_default unmade
  rw [none, show (default : Reference).parent = 0 from rfl] at h
  unfold handle at h
  omega

theorem reference_newReference_of_lt {ref : Nat} (lt : ref < s.references.size) (r : Reference) :
    (s.newReference r).2.reference ref = s.reference ref :=
  Table.get_push_of_lt lt r

theorem OwnsAccessors.newReference (h : s.OwnsAccessors) (r : Reference) :
    (s.newReference r).2.OwnsAccessors := by
  intro id own mem
  have parent := h id own mem
  rwa [reference_newReference_of_lt (lt_of_parent_eq_handle parent)]

/-- New accessors refer to their entity, and what there was stays. -/
theorem newAccessors_spec (owner : Nat) (backend : String) (s : Store)
    (declared : List (String × String)) :
    let own := (newAccessors (handle owner) backend s declared).1
    let t := (newAccessors (handle owner) backend s declared).2
    (∀ entry ∈ own, (t.reference entry.2).parent = handle owner) ∧ t.entities = s.entities ∧
      ∀ ref < s.references.size, t.reference ref = s.reference ref := by
  intro own t
  induction declared generalizing s with
  | nil =>
    exact ⟨fun _ mem => absurd mem List.not_mem_nil, rfl, fun _ _ => rfl⟩
  | cons head rest ih =>
    obtain ⟨accessor, attr⟩ := head
    let r : Reference := ⟨handle owner, backend, attr, none⟩
    obtain ⟨others, entities, kept⟩ := ih (s.newReference r).2
    have grown : (s.newReference r).2.references.size = s.references.size + 1 :=
      Table.size_push _ _
    have made : ((s.newReference r).2.reference s.references.size).parent = handle owner :=
      congrArg Reference.parent (Table.get_push_size s.references r)
    refine ⟨fun entry mem => ?_, entities, fun ref lt => ?_⟩
    · rcases List.mem_cons.mp mem with rfl | later
      · exact (congrArg Reference.parent (kept s.references.size (by omega))).trans made
      · exact others entry later
    · exact (kept ref (by omega)).trans (reference_newReference_of_lt lt r)

/-- A new entity refers to itself by its accessors. -/
theorem OwnsAccessors.newEntity (h : s.OwnsAccessors) (kind : Entity.Kind)
    (label backend entityType : String) (props : List (Value × Value))
    (declared : List (String × String)) (child : Option Child) :
    (s.newEntity kind label backend entityType props declared child).2.OwnsAccessors := by
  obtain ⟨fresh, entities, kept⟩ :=
    newAccessors_spec s.entities.size backend (s.newMapping props).2 declared
  let made := newAccessors (handle s.entities.size) backend (s.newMapping props).2 declared
  have tables : made.2.entities = s.entities := entities
  let e : Entity := ⟨kind, label, backend, entityType, s.mappings.size, made.1, none, child, none⟩
  have entity : ∀ id, (s.newEntity kind label backend entityType props declared child).2.entity id =
      (s.entities.push e).get id := by
    intro id
    rw [← tables]
    rfl
  intro id own mem
  show (made.2.reference own.2).parent = handle id
  rw [entity] at mem
  rcases Nat.lt_trichotomy id s.entities.size with lt | rfl | gt
  · rw [Table.get_push_of_lt lt] at mem
    have parent := h id own mem
    exact (congrArg Reference.parent (kept _ (lt_of_parent_eq_handle parent))).trans parent
  · rw [Table.get_push_size] at mem
    exact fresh own mem
  · rw [get_eq_default (by rw [Table.size_push]; omega)] at mem
    cases mem

/-- The property is stable: whatever a program does, accessors lead to their entity. -/
theorem stable_ownsAccessors : Stable OwnsAccessors where
  newSequence _ _ _ h := h.of_tables rfl rfl
  newMapping _ _ h := h.of_tables rfl rfl
  newReference _ r h := h.newReference r
  newOutput _ _ h := h.of_tables rfl rfl
  newIntrinsic _ _ h := h.of_tables rfl rfl
  newConstructor _ _ h := h.of_tables rfl rfl
  newComposite _ _ h := h.of_tables rfl rfl
  newDefinition _ _ _ h := h.of_tables rfl rfl
  newEntity _ _ _ _ _ _ _ _ h := h.newEntity _ _ _ _ _ _ _
  setMapping _ _ _ h := h.of_tables rfl rfl
  markMadeBy s id constructor h := by
    intro other own mem
    refine h other own ?_
    change own ∈ ((s.entities.modify id _).get other).accessors at mem
    rw [Table.get_modify] at mem
    split at mem <;> exact mem
  setShared _ _ _ h := h.of_tables rfl rfl

/-- A bucket, and a queue that reads an attribute of it. -/
def queueStore : Store :=
  let s := (initial.newEntity .resource "Bucket" "template" "Bucket" [] [("arn", "Arn")] none).2
  (s.newEntity .resource "Queue" "template" "Queue" [(.text "source", .reference 0)] [] none).2

theorem ownsAccessors_queueStore : queueStore.OwnsAccessors :=
  (ownsAccessors_initial.newEntity _ _ _ _ _ _ _ :
    (initial.newEntity ..).2.OwnsAccessors).newEntity _ _ _ _ _ _ _

end Store
end Infra
