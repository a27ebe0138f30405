import Infra.Text.Words

/-!
# The upper case of a character

The table leads out of itself: what it maps a character to are characters that it does not change.
The table is large, so its runs are compared with each other and not character by character.

* `ShiftRun.avoids` : a test that no upper case of one run lies in another;
  `ShiftRun.not_contains_of_avoids` : what it decides;
* `Settled` : a character that is its own upper case and no separator;
  `settled_of_leavesTable` : a run that avoids the whole table leads to such characters;
* `upperChar_cases` : the upper case of a character is the character alone, or consists of settled
  ones;
* `upperChar_of_mem_upperChar`, `isSeparator_of_mem_upperChar` : upper case is reached in one step,
  and separators come from separators only.
-/

namespace Infra.Text

/-! ## Runs -/

namespace ShiftRun

/-- The upper case of a code point of the run. -/
def image (r : ShiftRun) (n : Nat) : Nat := ((n : Int) + r.delta).toNat

/-- A code point alone, as a run that does not move. -/
def single (n : Nat) : ShiftRun := ⟨n, n, 1, 0⟩

/-- A test that no upper case of the run lies in another one: all are on one side of it, or of the
other parity. -/
def avoids (r other : ShiftRun) : Bool :=
  (r.image r.last).blt other.first || other.last.blt (r.image r.first) ||
    other.step.beq 2 && (r.step.beq 2 || r.first.beq r.last) &&
      ((r.image r.first + other.first) % 2).beq 1

/-- The run leads to code points. -/
def isUp (r : ShiftRun) : Bool := (0 : Int) ≤ r.first + r.delta

theorem not_contains_of_avoids {r other : ShiftRun} (up : r.isUp = true)
    (avoids : r.avoids other = true) {n : Nat} (inside : r.contains n = true) :
    other.contains (r.image n) = false := by
  have up : (0 : Int) ≤ r.first + r.delta := by simpa [isUp] using up
  have inside : (r.first ≤ n ∧ n ≤ r.last) ∧ (n - r.first) % r.step = 0 := by
    simpa [contains] using inside
  obtain ⟨⟨above, below⟩, onStep⟩ := inside
  have avoids : (r.image r.last < other.first ∨ other.last < r.image r.first) ∨
      (other.step = 2 ∧ (r.step = 2 ∨ r.first = r.last)) ∧
        (r.image r.first + other.first) % 2 = 1 := by
    simpa only [ShiftRun.avoids, Bool.or_eq_true, Bool.and_eq_true, Nat.blt_eq, Nat.beq_eq]
      using avoids
  rw [Bool.eq_false_iff]
  intro held
  unfold image at avoids held
  have held : (other.first ≤ (n + r.delta).toNat ∧ (n + r.delta).toNat ≤ other.last) ∧
      ((n + r.delta).toNat - other.first) % other.step = 0 := by
    simpa [contains] using held
  rcases avoids with (side | side) | ⟨⟨double, alternate | alone⟩, odd⟩
  · omega
  · omega
  · rw [double] at held
    rw [alternate] at onStep
    omega
  · rw [double] at held
    omega

theorem contains_single (n m : Nat) : (single n).contains m = true ↔ m = n := by
  show (decide (n ≤ m) && decide (m ≤ n) && (m - n) % 1 == 0) = true ↔ m = n
  rw [Nat.mod_one, beq_self_eq_true, Bool.and_true, Bool.and_eq_true, decide_eq_true_iff,
    decide_eq_true_iff]
  omega

theorem image_single (n : Nat) : (single n).image n = n := by
  show ((n : Int) + 0).toNat = n
  omega

end ShiftRun

/-! ## The table -/

/-- The code points that the table changes. -/
def sources : List ShiftRun := shiftRuns ++ expansions.map fun entry => .single entry.1

/-- The code points of the separators. -/
def separators : List ShiftRun := [.single '_'.toNat, .single '-'.toNat]

/-- A character that is its own upper case and no separator. -/
structure Settled (c : Char) : Prop where
  upper : upperChar c = [c]
  plain : isSeparator c = false

theorem upperChar_of_not_source {c : Char}
    (outside : ∀ run ∈ sources, run.contains c.toNat = false) : upperChar c = [c] := by
  have expansion : expansions.lookup c.toNat = none := by
    rw [List.lookup_eq_none_iff]
    intro entry mem
    rw [bne_iff_ne]
    intro same
    have held := outside (.single entry.1) (List.mem_append_right _ (List.mem_map_of_mem mem))
    rw [(ShiftRun.contains_single _ _).mpr same] at held
    cases held
  have shift : shiftRuns.find? (·.contains c.toNat) = none := by
    rw [List.find?_eq_none]
    intro run mem
    rw [outside run (List.mem_append_left _ mem)]
    exact Bool.false_ne_true
  rw [upperChar, expansion, shift]

theorem isSeparator_eq_false {c : Char}
    (outside : ∀ run ∈ separators, run.contains c.toNat = false) : isSeparator c = false := by
  have other : ∀ d : Char, .single d.toNat ∈ separators → (c == d) = false := by
    intro d mem
    rw [beq_eq_false_iff_ne]
    rintro rfl
    have held := outside _ mem
    rw [(ShiftRun.contains_single _ _).mpr rfl] at held
    cases held
  rw [isSeparator, other '_' List.mem_cons_self,
    other '-' (List.mem_cons_of_mem _ (List.mem_singleton_self _)), Bool.or_false]

/-- A code point outside of the table and of the separators is that of a settled character. -/
theorem settled_ofNat {n : Nat}
    (outside : ∀ run ∈ sources ++ separators, run.contains n = false) : Settled (Char.ofNat n) := by
  -- What is no code point stands for the null character.
  have null : ∀ run ∈ sources ++ separators, run.contains 0 = false := by decide +kernel
  have outside : ∀ run ∈ sources ++ separators, run.contains (Char.ofNat n).toNat = false := by
    intro run mem
    by_cases valid : n.isValidChar
    · rw [Char.ofNat, dif_pos valid]
      exact outside run mem
    · rw [Char.ofNat, dif_neg valid]
      exact null run mem
  exact ⟨upperChar_of_not_source fun run mem => outside run (List.mem_append_left _ mem),
    isSeparator_eq_false fun run mem => outside run (List.mem_append_right _ mem)⟩

/-- A test that the run leads out of the table, and to no separator. -/
def ShiftRun.leavesTable (r : ShiftRun) : Bool := r.isUp && (sources ++ separators).all r.avoids

theorem settled_of_leavesTable {r : ShiftRun} (leaves : r.leavesTable = true) {n : Nat}
    (inside : r.contains n = true) : Settled (Char.ofNat (r.image n)) := by
  obtain ⟨up, avoids⟩ := Bool.and_eq_true_iff.mp leaves
  exact settled_ofNat fun run mem =>
    ShiftRun.not_contains_of_avoids up (List.all_eq_true.mp avoids run mem) inside

theorem leavesTable_of_mem_shiftRuns : ∀ run ∈ shiftRuns, run.leavesTable = true :=
  List.all_eq_true.mp (by decide +kernel)

theorem leavesTable_of_mem_expansions :
    ∀ entry ∈ expansions, entry.2.all (fun code => (ShiftRun.single code).leavesTable) = true :=
  List.all_eq_true.mp (by decide +kernel)

theorem expansion_ne_nil : ∀ entry ∈ expansions, entry.2 ≠ [] := by decide +kernel

/-! ## Upper case -/

/-- The upper case of a character is the character alone, or consists of settled characters. -/
theorem upperChar_cases (c : Char) :
    upperChar c = [c] ∨ upperChar c ≠ [] ∧ ∀ u ∈ upperChar c, Settled u := by
  unfold upperChar
  split
  · next codes found =>
    obtain ⟨before, after, split, -⟩ := List.lookup_eq_some_iff.mp found
    have mem : (c.toNat, codes) ∈ expansions := split ▸ List.mem_append_right _ List.mem_cons_self
    refine .inr ⟨fun empty => expansion_ne_nil _ mem (List.map_eq_nil_iff.mp empty), ?_⟩
    refine List.forall_mem_map.mpr fun code inside => ?_
    have leaves := List.all_eq_true.mp (leavesTable_of_mem_expansions _ mem) code inside
    have settled := settled_of_leavesTable leaves ((ShiftRun.contains_single _ _).mpr rfl)
    rwa [ShiftRun.image_single] at settled
  · split
    · next run found =>
      have inside := List.find?_some found
      have leaves := leavesTable_of_mem_shiftRuns run (List.mem_of_find?_eq_some found)
      exact .inr ⟨List.cons_ne_nil _ _,
        List.forall_mem_singleton.mpr (settled_of_leavesTable leaves inside)⟩
    · exact .inl rfl

theorem upperChar_ne_nil (c : Char) : upperChar c ≠ [] := by
  rcases upperChar_cases c with eq | ⟨ne, -⟩
  · rw [eq]
    exact List.cons_ne_nil _ _
  · exact ne

/-- A character of upper case is its own upper case. -/
theorem upperChar_of_mem_upperChar {c u : Char} (mem : u ∈ upperChar c) : upperChar u = [u] := by
  rcases upperChar_cases c with eq | ⟨-, settled⟩
  · rw [eq, List.mem_singleton] at mem
    rw [mem, eq]
  · exact (settled u mem).upper

/-- The upper case of what is no separator has no separators. -/
theorem isSeparator_of_mem_upperChar {c u : Char} (plain : isSeparator c = false)
    (mem : u ∈ upperChar c) : isSeparator u = false := by
  rcases upperChar_cases c with eq | ⟨-, settled⟩
  · rw [eq, List.mem_singleton] at mem
    rwa [mem]
  · exact (settled u mem).plain

end Infra.Text
