import Infra.Fault
import Mathlib.Data.List.Forall2

/-!
# Results of chained operations

* `bind_eq_ok_iff`, `map_eq_ok_iff` : a chain of two operations succeeds when both do;
  `run_bind_eq_ok_iff` : so it is for operations on a state;
* `mapM_eq_ok_iff`, `forM_eq_ok_iff` : an operation on each item of a list succeeds when it does on
  every item;
* `bind_eq_error_iff`, `map_eq_error_iff` : a chain fails where one of its operations does;
  `exists_of_mapM_eq_error` : so does an operation on each item of a list;
* `FailsWith P x` : every fault of an operation has a property; so it is for a chain of operations;
* `exists_right_of_mem`, `exists_left_of_mem` : partners in related lists.
-/

namespace Infra

variable {ε α β : Type}

theorem bind_eq_ok_iff {x : Except ε α} {f : α → Except ε β} {b : β} :
    (x >>= f) = .ok b ↔ ∃ a, x = .ok a ∧ f a = .ok b := by
  cases x with
  | error fault =>
    show Except.error fault = _ ↔ _
    simp
  | ok a =>
    show f a = _ ↔ _
    simp

theorem map_eq_ok_iff {x : Except ε α} {f : α → β} {b : β} :
    (f <$> x) = .ok b ↔ ∃ a, x = .ok a ∧ f a = b := by
  cases x with
  | error fault =>
    show Except.error fault = _ ↔ _
    simp
  | ok a =>
    show Except.ok (f a) = _ ↔ _
    simp

theorem mapM_eq_ok_iff {f : α → Except Fault β} {items : List α} {results : List β} :
    items.mapM f = .ok results ↔ List.Forall₂ (fun a b => f a = .ok b) items results := by
  induction items generalizing results with
  | nil =>
    rw [List.mapM_nil, List.forall₂_nil_left_iff]
    show Except.ok [] = _ ↔ _
    rw [Except.ok.injEq, eq_comm]
  | cons a rest ih =>
    rw [List.mapM_cons, bind_eq_ok_iff, List.forall₂_cons_left_iff]
    constructor
    · rintro ⟨b, first, later⟩
      obtain ⟨others, rest_ok, eq⟩ := bind_eq_ok_iff.mp later
      cases eq
      exact ⟨b, others, first, ih.mp rest_ok, rfl⟩
    · rintro ⟨b, others, first, rest_ok, rfl⟩
      exact ⟨b, first, bind_eq_ok_iff.mpr ⟨others, ih.mpr rest_ok, rfl⟩⟩

theorem forM_eq_ok_iff {f : α → Except Fault PUnit} {items : List α} :
    items.forM f = .ok () ↔ ∀ a ∈ items, f a = .ok () := by
  induction items with
  | nil => simp [pure, Except.pure]
  | cons a rest ih =>
    show (f a >>= fun _ => rest.forM f) = _ ↔ _
    rw [bind_eq_ok_iff, List.forall_mem_cons]
    constructor
    · rintro ⟨⟨⟩, first, later⟩
      exact ⟨first, ih.mp later⟩
    · rintro ⟨first, later⟩
      exact ⟨(), first, ih.mpr later⟩

theorem run_bind_eq_ok_iff {σ : Type} {x : EStateM ε σ α} {f : α → EStateM ε σ β} {b : β}
    {s u : σ} : (x >>= f).run s = .ok b u ↔ ∃ a t, x.run s = .ok a t ∧ (f a).run t = .ok b u := by
  show EStateM.bind x f s = _ ↔ _
  unfold EStateM.bind EStateM.run
  cases x s with
  | ok a t => simp
  | error fault t => simp

/-- In related lists every item of the first has a partner in the second. -/
theorem exists_right_of_mem {r : α → β → Prop} {as : List α} {bs : List β}
    (h : List.Forall₂ r as bs) {a : α} (mem : a ∈ as) : ∃ b ∈ bs, r a b := by
  induction h with
  | nil => cases mem
  | cons first _ ih =>
    rcases List.mem_cons.mp mem with rfl | later
    · exact ⟨_, List.mem_cons_self, first⟩
    · obtain ⟨b, inside, related⟩ := ih later
      exact ⟨b, List.mem_cons_of_mem _ inside, related⟩

/-- In related lists every item of the second has a partner in the first. -/
theorem exists_left_of_mem {r : α → β → Prop} {as : List α} {bs : List β}
    (h : List.Forall₂ r as bs) {b : β} (mem : b ∈ bs) : ∃ a ∈ as, r a b :=
  exists_right_of_mem h.flip mem

/-- Every result comes from an item. -/
theorem exists_of_mem_mapM {f : α → Except Fault β} {items : List α} {results : List β}
    (h : items.mapM f = .ok results) {b : β} (mem : b ∈ results) : ∃ a ∈ items, f a = .ok b :=
  exists_left_of_mem (mapM_eq_ok_iff.mp h) mem

/-! ## Failures -/

theorem bind_eq_error_iff {x : Except Fault α} {f : α → Except Fault β} {fault : Fault} :
    (x >>= f) = .error fault ↔ x = .error fault ∨ ∃ a, x = .ok a ∧ f a = .error fault := by
  cases x with
  | error other =>
    show Except.error other = _ ↔ _
    simp
  | ok a =>
    show f a = _ ↔ _
    simp

theorem map_eq_error_iff {x : Except Fault α} {f : α → β} {fault : Fault} :
    (f <$> x) = .error fault ↔ x = .error fault := by
  cases x with
  | error other =>
    show Except.error other = _ ↔ _
    simp
  | ok a =>
    show Except.ok (f a) = _ ↔ _
    simp

/-- What fails on a list fails on one of its items. -/
theorem exists_of_mapM_eq_error {f : α → Except Fault β} {items : List α} {fault : Fault}
    (h : items.mapM f = .error fault) : ∃ a ∈ items, f a = .error fault := by
  induction items with
  | nil => cases h
  | cons a rest ih =>
    rw [List.mapM_cons] at h
    rcases bind_eq_error_iff.mp h with first | ⟨b, -, later⟩
    · exact ⟨a, List.mem_cons_self, first⟩
    · rcases bind_eq_error_iff.mp later with failed | ⟨others, -, never⟩
      · obtain ⟨c, inside, eq⟩ := ih failed
        exact ⟨c, List.mem_cons_of_mem a inside, eq⟩
      · cases never

/-- What fails along a list fails at one of its items. -/
theorem exists_of_foldlM_eq_error {f : β → α → Except Fault β} {items : List α} {b : β}
    {fault : Fault} (h : items.foldlM f b = .error fault) :
    ∃ a ∈ items, ∃ c, f c a = .error fault := by
  induction items generalizing b with
  | nil => cases h
  | cons a rest ih =>
    rw [List.foldlM_cons] at h
    rcases bind_eq_error_iff.mp h with first | ⟨c, -, later⟩
    · exact ⟨a, List.mem_cons_self, b, first⟩
    · obtain ⟨d, inside, failed⟩ := ih later
      exact ⟨d, List.mem_cons_of_mem a inside, failed⟩

/-- If the operation fails, its fault has the property. -/
def FailsWith (P : Fault → Prop) (x : Except Fault α) : Prop := ∀ fault, x = .error fault → P fault

namespace FailsWith

variable {P : Fault → Prop}

theorem ok (a : α) : FailsWith P (.ok a) := by
  intro fault failed
  cases failed

theorem error {fault : Fault} (h : P fault) : FailsWith P (.error fault : Except Fault α) := by
  rintro _ ⟨⟩
  exact h

theorem bind {x : Except Fault α} {f : α → Except Fault β} (first : FailsWith P x)
    (next : ∀ a, FailsWith P (f a)) : FailsWith P (x >>= f) := by
  intro fault failed
  rcases bind_eq_error_iff.mp failed with here | ⟨a, -, later⟩
  · exact first fault here
  · exact next a fault later

theorem mapM {f : α → Except Fault β} {items : List α} (each : ∀ a ∈ items, FailsWith P (f a)) :
    FailsWith P (items.mapM f) := by
  intro fault failed
  obtain ⟨a, inside, here⟩ := exists_of_mapM_eq_error failed
  exact each a inside fault here

theorem forM {f : α → Except Fault PUnit} {items : List α}
    (each : ∀ a ∈ items, FailsWith P (f a)) : FailsWith P (items.forM f) := by
  induction items with
  | nil => exact ok ()
  | cons a rest ih =>
    exact bind (each a List.mem_cons_self) fun _ =>
      ih fun b inside => each b (List.mem_cons_of_mem a inside)

end FailsWith
end Infra
