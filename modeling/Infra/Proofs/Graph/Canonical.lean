import Infra.Proofs.Graph.Circuit
import Mathlib.Data.String.Basic

/-!
# The canonical form of a cycle

* `smallest_mem`, `smallest_le` : the smallest of some names is one of them;
* `canonical_eq_cons` : a canonical form begins with its smallest member;
* `canonical_eq_of_isRotated` : cycles that are one another turned have one canonical form, which
  is its own (`canonical_canonical`);
* `close c` : the closed walk through the members of `c`; `SimpleClosed walk` : a closed walk that
  repeats no other node (`simpleClosed_close`);
* `canonicalOfClosed_spec` : the canonical form tells simple closed walks apart, unless one is the
  other turned.
-/

namespace Infra.Graph

/-! ## The smallest member -/

theorem smallest_cons (name other : String) (rest : List String) :
    smallest name (other :: rest) = smallest (min name other) rest := by
  unfold smallest
  rw [List.foldl_cons, min_def]
  by_cases le : name ≤ other
  · rw [if_pos le, if_neg (not_lt.mpr le)]
  · rw [if_neg le, if_pos (not_le.mp le)]

theorem smallest_mem (name : String) (names : List String) :
    smallest name names ∈ name :: names := by
  induction names generalizing name with
  | nil => exact List.mem_singleton.mpr rfl
  | cons other rest ih =>
    rw [smallest_cons]
    rcases List.mem_cons.mp (ih (min name other)) with eq | later
    · rw [eq]
      rcases min_choice name other with first | second
      · rw [first]
        exact List.mem_cons_self
      · rw [second]
        exact List.mem_cons_of_mem name List.mem_cons_self
    · exact List.mem_cons_of_mem name (List.mem_cons_of_mem other later)

theorem smallest_le_self (name : String) (names : List String) : smallest name names ≤ name := by
  induction names generalizing name with
  | nil => exact le_refl name
  | cons other rest ih =>
    rw [smallest_cons]
    exact (ih _).trans (min_le_left name other)

theorem smallest_le {name : String} {names : List String} {u : String} (mem : u ∈ name :: names) :
    smallest name names ≤ u := by
  induction names generalizing name with
  | nil => exact (List.mem_singleton.mp mem).ge
  | cons other rest ih =>
    rw [smallest_cons]
    rcases List.mem_cons.mp mem with rfl | mem
    · exact (smallest_le_self _ rest).trans (min_le_left u other)
    · rcases List.mem_cons.mp mem with rfl | later
      · exact (smallest_le_self _ rest).trans (min_le_right name u)
      · exact ih (List.mem_cons_of_mem _ later)

theorem smallest_eq_of_mem_iff {a b : String} {l m : List String}
    (same : ∀ u, u ∈ a :: l ↔ u ∈ b :: m) : smallest a l = smallest b m :=
  le_antisymm (smallest_le ((same _).mpr (smallest_mem b m)))
    (smallest_le ((same _).mp (smallest_mem a l)))

/-! ## Turned lists -/

theorem rotateTo_eq_cons {start : String} {names : List String} (mem : start ∈ names) :
    ∃ rest, rotateTo start names = start :: rest := by
  have stops : ∃ rest, names.dropWhile (· != start) = start :: rest := by
    induction names with
    | nil => cases mem
    | cons name names ih =>
      by_cases eq : name = start
      · exact ⟨names, by rw [List.dropWhile_cons_of_neg (by simp [eq]), eq]⟩
      · rw [List.dropWhile_cons_of_pos (by simpa using eq)]
        exact ih (List.mem_of_ne_of_mem (Ne.symm eq) mem)
  obtain ⟨rest, eq⟩ := stops
  exact ⟨rest ++ names.takeWhile (· != start), by rw [rotateTo, eq, List.cons_append]⟩

theorem eq_of_isRotated_of_nodup {a : String} {l m : List String} (turned : (a :: l) ~r (a :: m))
    (nodup : (a :: l).Nodup) : a :: l = a :: m := by
  obtain ⟨k, eq⟩ := turned
  have pos : 0 < (a :: l).length := Nat.succ_pos _
  have bound : k % (a :: l).length < (a :: l).length := Nat.mod_lt k pos
  have head : (a :: l)[k % (a :: l).length] = (a :: l)[0] := by
    have first := List.head?_rotate bound
    rw [List.rotate_mod, eq, List.head?_cons, List.getElem?_eq_getElem bound] at first
    exact (Option.some.inj first).symm
  have whole : k % (a :: l).length = 0 := (nodup.getElem_inj_iff).mp head
  rw [← eq, ← List.rotate_mod, whole, List.rotate_zero]

/-! ## Canonical forms -/

/-- The canonical form begins with the smallest member of the cycle. -/
theorem canonical_eq_cons {c : List String} (nonempty : c ≠ []) :
    ∃ least rest, canonical c = least :: rest ∧ ∀ u ∈ c, least ≤ u := by
  cases c with
  | nil => exact absurd rfl nonempty
  | cons name names =>
    obtain ⟨rest, eq⟩ := rotateTo_eq_cons (smallest_mem name names)
    exact ⟨smallest name names, rest, eq, fun u mem => smallest_le mem⟩

theorem canonical_nodup {c : List String} (nodup : c.Nodup) : (canonical c).Nodup :=
  (canonical_isRotated c).nodup_iff.mp nodup

/-- Cycles without repeated members that are one another turned have one canonical form. -/
theorem canonical_eq_of_isRotated {c d : List String} (turned : c ~r d) (nodup : c.Nodup) :
    canonical c = canonical d := by
  have both : canonical c ~r canonical d :=
    (canonical_isRotated c).symm.trans (turned.trans (canonical_isRotated d))
  match c, d with
  | [], d =>
    rw [List.isRotated_nil_iff.mp turned.symm]
  | a :: l, [] => cases List.isRotated_nil_iff.mp turned
  | a :: l, b :: m =>
    obtain ⟨rest, front⟩ := rotateTo_eq_cons (smallest_mem a l)
    obtain ⟨other, back⟩ := rotateTo_eq_cons (smallest_mem b m)
    change canonical (a :: l) = _ at front
    change canonical (b :: m) = _ at back
    have once := canonical_nodup nodup
    rw [← smallest_eq_of_mem_iff fun u => turned.mem_iff] at back
    rw [front, back] at both
    rw [front] at once
    rw [front, back]
    exact eq_of_isRotated_of_nodup both once

theorem canonical_canonical {c : List String} (nodup : c.Nodup) :
    canonical (canonical c) = canonical c :=
  (canonical_eq_of_isRotated (canonical_isRotated c) nodup).symm

theorem canonical_eq_iff {c d : List String} (nodup : c.Nodup) :
    canonical c = canonical d ↔ c ~r d := by
  refine ⟨fun same => ?_, fun turned => canonical_eq_of_isRotated turned nodup⟩
  have there : c ~r canonical d := same ▸ canonical_isRotated c
  exact there.trans (canonical_isRotated d).symm

/-! ## Closed walks -/

/-- The closed walk through the members of a list, which ends with the first of them again. -/
def close (c : List String) : List String := c ++ c.take 1

/-- A walk whose last node repeats the first and which goes through no other node twice. -/
structure SimpleClosed (walk : List String) : Prop where
  closed : walk.head? = walk.getLast?
  nodup : walk.dropLast.Nodup

theorem dropLast_close (c : List String) : (close c).dropLast = c := by
  cases c with
  | nil => rfl
  | cons a l => exact List.dropLast_concat

theorem simpleClosed_close {c : List String} (nodup : c.Nodup) : SimpleClosed (close c) := by
  constructor
  · cases c with
    | nil => rfl
    | cons a l => exact List.getLast?_concat.symm
  · rwa [dropLast_close]

/-- A closed walk of at least one edge is in its last node where it was before. -/
theorem SimpleClosed.mem_dropLast {walk : List String} (h : SimpleClosed walk)
    (long : walk.dropLast ≠ []) {u : String} (mem : u ∈ walk) : u ∈ walk.dropLast := by
  rcases List.eq_nil_or_concat walk with rfl | ⟨init, last, rfl⟩
  · cases mem
  · have closed := h.closed
    rw [List.concat_eq_append, List.dropLast_concat] at *
    obtain ⟨first, rest, rfl⟩ := List.exists_cons_of_ne_nil long
    rw [List.getLast?_concat, List.cons_append, List.head?_cons] at closed
    obtain rfl := Option.some.inj closed
    rcases List.mem_append.mp mem with before | again
    · exact before
    · exact List.mem_singleton.mp again ▸ List.mem_cons_self

/-- The canonical form of a simple closed walk is its nodes turned so that the smallest one is first.
Another walk has the same one exactly when its nodes are those of the first turned. To close the
form and take the canonical form again changes nothing. -/
theorem canonicalOfClosed_spec {walk : List String} (simple : SimpleClosed walk)
    (other : List String) :
    (canonicalOfClosed walk = canonicalOfClosed other ↔ walk.dropLast ~r other.dropLast) ∧
    walk.dropLast ~r canonicalOfClosed walk ∧
    (walk.dropLast ≠ [] →
      ∃ least rest, canonicalOfClosed walk = least :: rest ∧ ∀ u ∈ walk, least ≤ u) ∧
    canonicalOfClosed (close (canonicalOfClosed walk)) = canonicalOfClosed walk := by
  refine ⟨canonical_eq_iff simple.nodup, canonical_isRotated _, fun long => ?_, ?_⟩
  · obtain ⟨least, rest, form, smallest⟩ := canonical_eq_cons long
    exact ⟨least, rest, form, fun u mem => smallest u (simple.mem_dropLast long mem)⟩
  · unfold canonicalOfClosed
    rw [dropLast_close, canonical_canonical simple.nodup]

/-- A walk through three nodes from the second of them on, and the same walk from the last one. -/
theorem canonicalOfClosed_spec_turned :
    SimpleClosed ["C", "A", "B", "C"] ∧
      canonicalOfClosed ["C", "A", "B", "C"] = canonicalOfClosed ["B", "C", "A", "B"] ∧
      canonicalOfClosed ["C", "A", "B", "C"] ≠ canonicalOfClosed ["C", "B", "A", "C"] := by
  have simple : SimpleClosed ["C", "A", "B", "C"] := ⟨rfl, by decide⟩
  refine ⟨simple, ?_, ?_⟩
  · exact (canonicalOfClosed_spec simple _).1.mpr ⟨2, rfl⟩
  · exact mt (canonicalOfClosed_spec simple _).1.mp (by decide)

end Infra.Graph
