/-!
# Order of texts

Texts are ordered by code point, and names that an answer lists are sorted by that order.

* `sorted` : a list of texts in ascending order, repetitions kept; `sorted_filter` : to sort
  commutes with leaving texts out;
* `dedupe` : the first occurrences of a list of texts; `pairwise_lt_sorted_dedupe` : sorted, they are
  in strict order.
-/

namespace Infra.Text

/-- A list of texts in ascending order. -/
def sorted (names : List String) : List String := names.mergeSort fun a b => decide (a ≤ b)

theorem mem_sorted {name : String} {names : List String} :
    name ∈ sorted names ↔ name ∈ names := by
  simp [sorted]

theorem pairwise_sorted (names : List String) : (sorted names).Pairwise (· ≤ ·) := by
  have ordered : (sorted names).Pairwise fun a b => decide (a ≤ b) = true :=
    List.pairwise_mergeSort (by simpa using fun _ _ _ => String.le_trans)
      (by simpa using String.le_total) names
  exact ordered.imp of_decide_eq_true

/-- To leave some texts out makes no difference to the order of the others. -/
theorem sorted_filter (p : String → Bool) (names : List String) :
    sorted (names.filter p) = (sorted names).filter p := by
  have perm : (sorted (names.filter p)).Perm ((sorted names).filter p) :=
    (List.mergeSort_perm _ _).trans ((List.mergeSort_perm names _).symm.filter p)
  apply perm.eq_of_pairwise ?_ (pairwise_sorted _) ((pairwise_sorted names).filter p)
  intro a b _ _ hab hba
  exact String.le_antisymm hab hba

/-- The first occurrences of a list of texts, in order. -/
def dedupe (names : List String) : List String :=
  names.foldl (fun kept name => if kept.contains name then kept else kept ++ [name]) []

theorem mem_foldl_dedupe {t : String} (names kept : List String) :
    t ∈ names.foldl (fun kept name => if kept.contains name then kept else kept ++ [name]) kept ↔
      t ∈ kept ∨ t ∈ names := by
  induction names generalizing kept with
  | nil => simp
  | cons name rest ih =>
    rw [List.foldl_cons, ih]
    by_cases known : kept.contains name
    · rw [if_pos known]
      have mem : name ∈ kept := by simpa using known
      constructor
      · rintro (before | later)
        · exact .inl before
        · exact .inr (List.mem_cons_of_mem _ later)
      · rintro (before | new)
        · exact .inl before
        · rcases List.mem_cons.mp new with rfl | later
          · exact .inl mem
          · exact .inr later
    · rw [if_neg known, List.mem_append, List.mem_singleton, List.mem_cons, or_assoc]

@[simp] theorem mem_dedupe {t : String} {names : List String} : t ∈ dedupe names ↔ t ∈ names := by
  unfold dedupe
  rw [mem_foldl_dedupe]
  simp

theorem nodup_foldl_dedupe (names : List String) {kept : List String} (nodup : kept.Nodup) :
    (names.foldl (fun kept name => if kept.contains name then kept else kept ++ [name])
      kept).Nodup := by
  induction names generalizing kept with
  | nil => exact nodup
  | cons name rest ih =>
    rw [List.foldl_cons]
    apply ih
    split
    · exact nodup
    · next new =>
      have fresh : name ∉ kept := by simpa using new
      exact List.nodup_append.mpr ⟨nodup, List.pairwise_singleton _ name, by grind⟩

theorem nodup_dedupe (names : List String) : (dedupe names).Nodup :=
  nodup_foldl_dedupe names List.nodup_nil

/-- Names without repetitions are in strict order. -/
theorem pairwise_lt_sorted_dedupe (names : List String) :
    (sorted (dedupe names)).Pairwise (· < ·) := by
  have nodup : (sorted (dedupe names)).Nodup :=
    (List.mergeSort_perm _ _).nodup_iff.mpr (nodup_dedupe names)
  exact ((pairwise_sorted _).and nodup).imp fun ⟨le, ne⟩ => Std.lt_of_le_of_ne le ne

end Infra.Text
