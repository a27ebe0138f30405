import Infra.Decimal.Reading
import Infra.Proofs.Decimal.Rounding
import Mathlib.Algebra.Order.Field.Basic
import Mathlib.Data.List.Induction
import Mathlib.Tactic.Positivity

/-!
# Reading shortest decimals

* `Decimal.digits_eq`, `Decimal.natOfDigits_digits` : the digits of a number spell it;
* `Scientific.fraction` : the fraction that a decimal stands for;
* `Scientific.toBinary64_of_contains` : a decimal in the interval of a number is read as it;
* `Decimal.contains_shortest` : the shortest decimal of a number lies in its interval.
-/

namespace Infra.Decimal

/-! ## Digits -/

theorem digits_eq (n : Nat) : digits n = Nat.toDigits 10 n := by
  rw [digits, Nat.toString_eq_ofList_toDigits, String.toList_ofList]

theorem natOfDigits_digits (n : Nat) : natOfDigits (digits n) = n := by
  rw [digits_eq]
  exact Nat.ofDigitChars_ten_toDigits

theorem natOfDigits_append (ds es : List Char) :
    natOfDigits (ds ++ es) = 10 ^ es.length * natOfDigits ds + natOfDigits es := by
  induction es using List.reverseRecOn with
  | nil => simp [natOfDigits]
  | append_singleton es c ih =>
    have last : ∀ cs, natOfDigits (cs ++ [c]) = 10 * natOfDigits cs + (c.toNat - '0'.toNat) :=
      fun cs => List.foldl_concat ..
    rw [← List.append_assoc, last, ih, last, List.length_append, List.length_singleton, pow_succ]
    ring

theorem digitCount_eq (n : Nat) : digitCount n = (digits n).length := by
  rw [digitCount, digits, String.length_toList]

theorem digitCount_pos (n : Nat) : 0 < digitCount n := by
  rw [digitCount_eq, digits_eq]
  exact Nat.length_toDigits_pos

theorem digitCount_le_iff {n k : Nat} (pos : 0 < k) : digitCount n ≤ k ↔ n < 10 ^ k := by
  rw [digitCount_eq, digits_eq]
  exact Nat.length_toDigits_le_iff (by decide) pos

theorem digitCount_bounds {n : Nat} (pos : 0 < n) :
    10 ^ (digitCount n - 1) ≤ n ∧ n < 10 ^ digitCount n := by
  refine ⟨?_, (digitCount_le_iff (digitCount_pos n)).mp le_rfl⟩
  by_contra less
  have count := digitCount_pos n
  rcases Nat.eq_zero_or_pos (digitCount n - 1) with one | more
  · rw [one] at less
    omega
  · have := (digitCount_le_iff more).mpr (Nat.lt_of_not_le less)
    omega

/-! ## Decimals -/

namespace Scientific

/-- The fraction that a decimal stands for, without its sign. -/
def fraction (d : Scientific) : Nat × Nat :=
  match d.exponent with
  | .ofNat k => (d.digits * 10 ^ k, 1)
  | .negSucc k => (d.digits, 10 ^ (k + 1))

theorem fraction_pos (d : Scientific) : 0 < d.fraction.2 := by
  unfold fraction
  split
  · exact Nat.one_pos
  · exact Nat.pow_pos (by decide)

theorem fraction_eq (d : Scientific) :
    (d.fraction.1 : ℚ) / d.fraction.2 = d.digits * 10 ^ d.exponent := by
  unfold fraction
  split
  · next k eq =>
    rw [eq, Int.ofNat_eq_natCast, zpow_natCast]
    push_cast
    rw [div_one]
  · next k eq =>
    rw [eq, zpow_negSucc]
    push_cast
    rw [div_eq_mul_inv]

theorem digits_ne_zero {d : Scientific} (nonzero : d.fraction.1 ≠ 0) : d.digits ≠ 0 := by
  intro zero
  apply nonzero
  unfold fraction
  split
  · rw [zero, Nat.zero_mul]
  · exact zero

theorem fraction_bounds {d : Scientific} (nonzero : d.digits ≠ 0) :
    (10 : ℚ) ^ (d.exponent + digitCount d.digits - 1) ≤ d.fraction.1 / d.fraction.2 ∧
      (d.fraction.1 : ℚ) / d.fraction.2 < 10 ^ (d.exponent + digitCount d.digits) := by
  obtain ⟨low, high⟩ := digitCount_bounds (Nat.pos_of_ne_zero nonzero)
  have count := digitCount_pos d.digits
  have unit : (0 : ℚ) < 10 ^ d.exponent := zpow_pos (by norm_num) _
  rw [fraction_eq]
  refine ⟨?_, ?_⟩
  · have split : d.exponent + (digitCount d.digits : ℤ) - 1 =
        ((digitCount d.digits - 1 : Nat) : ℤ) + d.exponent := by
      omega
    rw [split, zpow_add₀ (by norm_num), zpow_natCast]
    gcongr
    exact_mod_cast low
  · rw [add_comm, zpow_add₀ (by norm_num), zpow_natCast]
    gcongr
    exact_mod_cast high

end Scientific

open Binary64

variable {mantissa : Nat} {exponent : Int}

/-- What lies in the interval of a number lies in the range of the format. -/
theorem range_of_contains (canonical : Canonical mantissa exponent) (filled : mantissa ≠ 0)
    {a b : Nat} (pos : 0 < b) (h : (Interval.of mantissa exponent).contains a b = true) :
    (2 : ℚ) ^ (-1075 : ℤ) ≤ a / b ∧ (a : ℚ) / b < 2 ^ (1024 : ℤ) := by
  obtain ⟨least, most, -⟩ := near_of_contains filled pos h
  obtain ⟨small, low, high, -⟩ := canonical
  have one : (1 : ℚ) ≤ mantissa := by exact_mod_cast Nat.one_le_iff_ne_zero.mpr filled
  have width : (mantissa : ℚ) + 1 ≤ 9007199254740992 := by exact_mod_cast small
  refine ⟨le_trans ?_ least, most.trans_lt ?_⟩
  · calc (2 : ℚ) ^ (-1075 : ℤ) = 1 / 2 * 2 ^ (-1074 : ℤ) := by
          rw [show (-1075 : ℤ) = -1 + -1074 by norm_num, zpow_add₀ (by norm_num)]
          norm_num
      _ ≤ ((mantissa : ℚ) - 1 / 2) * 2 ^ exponent :=
          mul_le_mul (by linarith) (zpow_le_zpow_right₀ (by norm_num) low) (two_zpow_pos _).le
            (by linarith)
  · calc ((mantissa : ℚ) + 1 / 2) * 2 ^ exponent < 9007199254740992 * 2 ^ exponent :=
          mul_lt_mul_of_pos_right (by linarith) (two_zpow_pos _)
      _ ≤ 9007199254740992 * 2 ^ (971 : ℤ) :=
          mul_le_mul_of_nonneg_left (zpow_le_zpow_right₀ (by norm_num) high) (by norm_num)
      _ = 2 ^ (1024 : ℤ) := by
          rw [show (1024 : ℤ) = 53 + 971 by norm_num, zpow_add₀ (by norm_num)]
          norm_num

theorem contains_of_value {d other : Scientific}
    (same : (d.digits : ℚ) * 10 ^ d.exponent = other.digits * 10 ^ other.exponent)
    (h : (Interval.of mantissa exponent).contains other.fraction.1 other.fraction.2 = true) :
    (Interval.of mantissa exponent).contains d.fraction.1 d.fraction.2 = true := by
  rw [Interval.contains_iff d.fraction_pos, d.fraction_eq, same, ← other.fraction_eq,
    ← Interval.contains_iff other.fraction_pos]
  exact h

theorem Scientific.digits_ne_zero_of_contains (canonical : Canonical mantissa exponent)
    (filled : mantissa ≠ 0) {d : Scientific}
    (h : (Interval.of mantissa exponent).contains d.fraction.1 d.fraction.2 = true) :
    d.digits ≠ 0 := by
  refine Scientific.digits_ne_zero fun zero => ?_
  have least := (range_of_contains canonical filled d.fraction_pos h).1
  rw [zero, Nat.cast_zero, zero_div] at least
  exact absurd (two_zpow_pos (-1075)) (not_lt.mpr least)

theorem eq_infinity_of_parts {x : Binary64} {negative : Bool}
    (parts : x.parts = .infinite negative) : x = infinity negative := by
  obtain ⟨eleven, width, -, sign⟩ := pow_two_values
  have bound : x.bits.toNat < 18446744073709551616 := x.bits.toNat_lt
  unfold Binary64.parts at parts
  simp only [eleven, width, sign] at parts
  split at parts
  · split at parts
    · next most none =>
      cases parts
      refine eq_ofMagnitude ?_
      simp only [width, decide_eq_true_eq]
      split <;> omega
    · cases parts
  · split at parts <;> cases parts

theorem eq_zero_of_parts {x : Binary64} {negative : Bool}
    (parts : x.parts = .finite negative 0 exponent) : x = zero negative := by
  obtain ⟨canonical, eq⟩ := canonical_of_parts parts
  obtain rfl : exponent = -1074 := canonical.wide.resolve_left (by decide)
  exact eq

/-- A decimal of a size in the range of the format is read by its fraction. -/
theorem Scientific.toBinary64_eq {d : Scientific} (nonzero : d.digits ≠ 0)
    (small : -330 ≤ d.exponent + digitCount d.digits)
    (large : d.exponent + digitCount d.digits ≤ 310) :
    d.toBinary64 = ofRatio d.negative d.fraction.1 d.fraction.2 := by
  unfold Scientific.toBinary64
  dsimp only
  rw [if_neg (not_or.mpr ⟨nonzero, not_lt.mpr small⟩), if_neg (not_lt.mpr large)]
  obtain ⟨sign, digits, e⟩ := d
  cases e with
  | ofNat k => rfl
  | negSucc k => rfl

theorem Scientific.toBinary64_of_zero {d : Scientific} (zero : d.digits = 0) :
    d.toBinary64 = .zero d.negative := by
  unfold Scientific.toBinary64
  dsimp only
  rw [if_pos (.inl zero)]

/-- A decimal in the interval of a number is read as that number. -/
theorem Scientific.toBinary64_of_contains {x : Binary64} {negative : Bool}
    (parts : x.parts = .finite negative mantissa exponent) (filled : mantissa ≠ 0)
    {d : Scientific} (sign : d.negative = negative)
    (h : (Interval.of mantissa exponent).contains d.fraction.1 d.fraction.2 = true) :
    d.toBinary64 = x := by
  obtain ⟨canonical, eq⟩ := canonical_of_parts parts
  obtain ⟨least, most⟩ := range_of_contains canonical filled d.fraction_pos h
  have nonzero := Scientific.digits_ne_zero_of_contains canonical filled h
  obtain ⟨low, high⟩ := Scientific.fraction_bounds nonzero
  have small : -330 ≤ d.exponent + digitCount d.digits := by
    by_contra less
    have tiny : (2 : ℚ) ^ (-1075 : ℤ) < 10 ^ (-330 : ℤ) :=
      (least.trans_lt high).trans_le (zpow_le_zpow_right₀ (by norm_num) (lt_of_not_ge less).le)
    rw [zpow_neg, zpow_neg, inv_lt_inv₀ (two_zpow_pos _) (zpow_pos (by norm_num) _), zpow_ofNat,
      zpow_ofNat] at tiny
    have wrong : 10 ^ 330 < 2 ^ 1075 := by exact_mod_cast tiny
    exact absurd wrong (by decide +kernel)
  have large : d.exponent + digitCount d.digits ≤ 310 := by
    by_contra more
    have huge : (10 : ℚ) ^ (310 : ℤ) < 2 ^ (1024 : ℤ) :=
      ((zpow_le_zpow_right₀ (by norm_num) (by omega)).trans low).trans_lt most
    rw [zpow_ofNat, zpow_ofNat] at huge
    have wrong : 10 ^ 310 < 2 ^ 1024 := by exact_mod_cast huge
    exact absurd wrong (by decide +kernel)
  rw [Scientific.toBinary64_eq nonzero small large, eq, sign]
  exact ofRatio_of_contains negative canonical filled d.fraction_pos h

/-! ## The shortest decimal -/

theorem contains_of_nearest {i : Interval} {a b n : Nat} (h : i.nearest? a b = some n) :
    i.contains (n * a) b = true := by
  unfold Interval.nearest? at h
  dsimp only at h
  split at h
  · cases h
  · next below _ =>
    cases h
    exact below
  · next _ above =>
    cases h
    exact above
  · next below above =>
    split at h
    · cases h
      exact below
    · cases h
      exact above

/-- A point of a grid that lies in the interval is a decimal there. -/
theorem contains_of_gridPoint {i : Interval} {e : Int} {n : Nat} (h : i.gridPoint? e = some n)
    (negative : Bool) :
    i.contains (Scientific.fraction ⟨negative, n, e⟩).1 (Scientific.fraction ⟨negative, n, e⟩).2 =
      true := by
  cases e with
  | ofNat k => exact contains_of_nearest h
  | negSucc k =>
    have := contains_of_nearest (a := 1) h
    rwa [Nat.mul_one] at this

/-- The point after the number on a fine grid lies in the interval. -/
theorem exists_nearest (canonical : Canonical mantissa exponent) {b : Nat} (pos : 0 < b)
    (fine : (1 : ℚ) / b < 2 ^ (-1075 : ℤ)) :
    ∃ n, (Interval.of mantissa exponent).nearest? 1 b = some n := by
  obtain ⟨num, den, unit⟩ := Interval.unit_of mantissa exponent
  have cast : (0 : ℚ) < b := by exact_mod_cast pos
  have under : (0 : ℚ) < (Interval.of mantissa exponent).den := by exact_mod_cast den
  have middle : (Interval.of mantissa exponent).middle = 4 * mantissa := rfl
  have low : (Interval.of mantissa exponent).low ≤ 4 * mantissa := by
    rw [Interval.low_of]
    split <;> omega
  have above : (Interval.of mantissa exponent).contains
      (((Interval.of mantissa exponent).middle * (Interval.of mantissa exponent).num * b /
        ((Interval.of mantissa exponent).den * 1) + 1) * 1) b = true := by
    rw [Interval.contains_iff pos, ← unit, middle, Nat.mul_one, Nat.mul_one]
    generalize (Interval.of mantissa exponent).num = n at *
    generalize (Interval.of mantissa exponent).den = d at *
    generalize (Interval.of mantissa exponent).low = l at *
    have least : 4 * mantissa * n * b < (4 * mantissa * n * b / d + 1) * d :=
      Nat.lt_mul_of_div_lt (Nat.lt_succ_self _) den
    have most := Nat.div_mul_le_self (4 * mantissa * n * b) d
    generalize 4 * mantissa * n * b / d = k at *
    have half : 2 ^ (-1075 : ℤ) ≤ 2 * ((n : ℚ) / d) := by
      rw [unit, ← zpow_one_add₀ (by norm_num)]
      exact zpow_le_zpow_right₀ (by norm_num) (by have := canonical.low; omega)
    have after : (4 * mantissa : ℚ) * (n / d) < ((k + 1 : Nat) : ℚ) / b := by
      rw [← mul_div_assoc, div_lt_div_iff₀ under cast]
      exact_mod_cast least
    have near : ((k + 1 : Nat) : ℚ) / b < (4 * mantissa + 2) * (n / d) := by
      have before : (k : ℚ) / b ≤ 4 * mantissa * (n / d) := by
        rw [← mul_div_assoc, div_le_div_iff₀ cast under]
        exact_mod_cast most
      rw [Nat.cast_add, Nat.cast_one, add_div]
      linarith
    have least' : (l : ℚ) * (n / d) < ((k + 1 : Nat) : ℚ) / b := by
      refine lt_of_le_of_lt (mul_le_mul_of_nonneg_right ?_ (by positivity)) after
      exact_mod_cast low
    exact ⟨⟨least'.le, near.le⟩, .inr ⟨least', near⟩⟩
  unfold Interval.nearest?
  dsimp only
  split
  · next never => cases above.symm.trans never
  · exact ⟨_, rfl⟩
  · exact ⟨_, rfl⟩
  · split
    · exact ⟨_, rfl⟩
    · exact ⟨_, rfl⟩

/-- The finest grid has a point in every interval. -/
theorem exists_gridPoint (canonical : Canonical mantissa exponent) :
    ∃ n, (Interval.of mantissa exponent).gridPoint? (.negSucc 323) = some n := by
  refine exists_nearest canonical (by decide +kernel) ?_
  have coarser : ((2 ^ 1075 : Nat) : ℚ) < (Nat.pow 10 (323 + 1) : Nat) :=
    Nat.cast_lt.mpr (by decide +kernel)
  rw [Nat.cast_pow, Nat.cast_ofNat] at coarser
  rw [zpow_neg, ← one_div, zpow_ofNat]
  exact one_div_lt_one_div_of_lt (by positivity) coarser

/-- The shortest decimal of a number lies in its interval. -/
theorem contains_shortest (canonical : Canonical mantissa exponent) (negative : Bool) :
    let d : Scientific := ⟨negative, (shortest mantissa exponent).1, (shortest mantissa exponent).2⟩
    (Interval.of mantissa exponent).contains d.fraction.1 d.fraction.2 = true := by
  obtain ⟨n, finest⟩ := exists_gridPoint canonical
  have known : Int.negSucc 323 ∈ gridExponents :=
    List.mem_map.mpr ⟨633, List.mem_range.mpr (by decide), rfl⟩
  obtain ⟨hit, found⟩ : ∃ hit, (gridExponents.findSome? fun e =>
      ((Interval.of mantissa exponent).gridPoint? e).map fun digits => (digits, e)) = some hit := by
    refine Option.isSome_iff_exists.mp (List.findSome?_isSome_iff.mpr ⟨_, known, ?_⟩)
    rw [finest]
    rfl
  obtain ⟨e, -, point⟩ := List.exists_of_findSome?_eq_some found
  obtain ⟨digits, inside, rfl⟩ := Option.map_eq_some_iff.mp point
  have eq : shortest mantissa exponent = (digits, e) := by
    unfold shortest
    dsimp only
    rw [found]
    rfl
  rw [eq]
  exact contains_of_gridPoint inside negative

end Infra.Decimal
