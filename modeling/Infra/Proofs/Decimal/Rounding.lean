import Infra.Decimal.Shortest
import Mathlib.Algebra.Order.Field.Power
import Mathlib.Algebra.Order.Field.Rat
import Mathlib.Tactic.FieldSimp
import Mathlib.Tactic.GCongr
import Mathlib.Tactic.Linarith
import Mathlib.Tactic.Ring

/-!
# Rounding to binary64 numbers

* `Binary64.Canonical` : the mantissas and exponents of finite numbers;
* `Binary64.topExponent_unique` : the exponent that gives a fraction a mantissa of the full width;
* `Interval.contains_iff` : the fractions in the interval of a number;
* `Binary64.ofRatio_of_contains` : each of them is rounded to that number.
-/

namespace Infra.Decimal

namespace Binary64

/-! ## Finite numbers -/

/-- The mantissa and the exponent of a finite number: the mantissa has its full width, unless the
exponent is the least. -/
structure Canonical (mantissa : Nat) (exponent : Int) : Prop where
  small : mantissa < 2 ^ 53
  low : -1074 ≤ exponent
  high : exponent ≤ 971
  wide : 2 ^ 52 ≤ mantissa ∨ exponent = -1074

/-- The bits of a finite number without its sign. -/
def magnitude (mantissa : Nat) (exponent : Int) : Nat := (exponent + 1074).toNat * 2 ^ 52 + mantissa

theorem pow_two_values : Nat.pow 2 11 = 2048 ∧ Nat.pow 2 52 = 4503599627370496 ∧
    Nat.pow 2 53 = 9007199254740992 ∧ Nat.pow 2 63 = 9223372036854775808 := by
  decide

theorem eq_ofMagnitude {x : Binary64} {negative : Bool} {size : Nat}
    (h : x.bits.toNat = size + if negative then 9223372036854775808 else 0) :
    x = ofMagnitude negative size := by
  obtain ⟨-, -, -, sign⟩ := pow_two_values
  refine congrArg Binary64.mk (UInt64.toNat_inj.mp ?_)
  rw [UInt64.toNat_ofNat', sign, ← h, Nat.mod_eq_of_lt x.bits.toNat_lt]

theorem canonical_of_parts {x : Binary64} {negative : Bool} {mantissa : Nat} {exponent : Int}
    (h : x.parts = .finite negative mantissa exponent) :
    Canonical mantissa exponent ∧ x = ofMagnitude negative (magnitude mantissa exponent) := by
  obtain ⟨eleven, width, -, sign⟩ := pow_two_values
  have bound : x.bits.toNat < 18446744073709551616 := x.bits.toNat_lt
  unfold parts at h
  simp only [eleven, width, sign] at h
  split at h
  · split at h <;> cases h
  · split at h
    · next below =>
      cases h
      refine ⟨⟨by omega, le_rfl, by decide, .inr rfl⟩, eq_ofMagnitude ?_⟩
      simp only [magnitude, decide_eq_true_eq]
      split <;> omega
    · next finite normal =>
      cases h
      refine ⟨⟨by omega, by omega, by omega, .inl (by omega)⟩, eq_ofMagnitude ?_⟩
      simp only [magnitude, decide_eq_true_eq]
      split <;> omega

/-! ## Fractions -/

theorem scaleBack_spec (num : Nat) {den : Nat} (pos : 0 < den) (exponent : Int) :
    0 < (scaleBack num den exponent).2 ∧
      ((scaleBack num den exponent).1 : ℚ) / (scaleBack num den exponent).2 =
        num / den / 2 ^ exponent := by
  have positive : (0 : ℚ) < den := by exact_mod_cast pos
  cases exponent with
  | ofNat k =>
    refine ⟨Nat.mul_pos pos (Nat.pow_pos (by decide)), ?_⟩
    show (num : ℚ) / ((den * 2 ^ k : Nat) : ℚ) = _
    rw [Int.ofNat_eq_natCast, zpow_natCast]
    push_cast
    rw [div_div]
  | negSucc k =>
    refine ⟨pos, ?_⟩
    show ((num * 2 ^ (k + 1) : Nat) : ℚ) / den = _
    rw [zpow_negSucc]
    push_cast
    field_simp

/-- The rounded quotient is the integer that is at most a half away, an even one where it is a half
away. -/
theorem roundHalfEven_eq {num den m : Nat} (pos : 0 < den) (low : 2 * (m * den) ≤ 2 * num + den)
    (high : 2 * num ≤ 2 * (m * den) + den)
    (tie : m % 2 = 0 ∨ 2 * (m * den) < 2 * num + den ∧ 2 * num < 2 * (m * den) + den) :
    roundHalfEven num den = m := by
  have split := Nat.div_add_mod num den
  have rest := Nat.mod_lt num pos
  have either : num / den = m ∨ num / den + 1 = m := by
    have above : num / den ≤ m := by
      by_contra more
      have step : den * (m + 1) ≤ den * (num / den) :=
        Nat.mul_le_mul_left den (Nat.lt_of_not_le more)
      have expand : den * (m + 1) = m * den + den := by ring
      omega
    have below : m ≤ num / den + 1 := by
      by_contra less
      have step : den * (num / den + 1 + 1) ≤ den * m :=
        Nat.mul_le_mul_left den (Nat.lt_of_not_le less)
      have expand : den * (num / den + 1 + 1) = den * (num / den) + 2 * den := by ring
      have comm : den * m = m * den := Nat.mul_comm _ _
      omega
    omega
  unfold roundHalfEven
  rcases either with rfl | rfl
  · have comm : num / den * den = den * (num / den) := Nat.mul_comm _ _
    rw [if_pos]
    rcases tie with even | ⟨-, strict⟩
    · omega
    · omega
  · have comm : (num / den + 1) * den = den * (num / den) + den := by ring
    rw [if_neg]
    rcases tie with even | ⟨strict, -⟩
    · omega
    · omega

/-- The exponent that gives the fraction a mantissa of the full width. -/
def topExponent (num den : Nat) : Int :=
  let guess : Int := (num.log2 : Int) - den.log2 - 53
  if (scaleBack num den guess).1 / (scaleBack num den guess).2 < Nat.pow 2 53 then guess
  else guess + 1

theorem ofRatio_eq (negative : Bool) {num : Nat} (den : Nat) (nonzero : num ≠ 0) :
    ofRatio negative num den =
      let exponent := max (topExponent num den) (-1074)
      let scaled := scaleBack num den exponent
      let size := (exponent + 1074).toNat * Nat.pow 2 52 + roundHalfEven scaled.1 scaled.2
      if 2047 * Nat.pow 2 52 ≤ size then infinity negative else ofMagnitude negative size := by
  unfold ofRatio
  rw [if_neg nonzero]
  rfl

theorem two_zpow_pos (k : ℤ) : (0 : ℚ) < 2 ^ k := zpow_pos (by norm_num) k

theorem log2_bounds {n : Nat} (pos : 0 < n) :
    (2 : ℚ) ^ (n.log2 : ℤ) ≤ n ∧ (n : ℚ) < 2 ^ ((n.log2 : ℤ) + 1) := by
  have low := Nat.log2_self_le (Nat.pos_iff_ne_zero.mp pos)
  have high := Nat.lt_log2_self (n := n)
  refine ⟨?_, ?_⟩
  · rw [zpow_natCast]
    exact_mod_cast low
  · rw [← Nat.cast_succ, zpow_natCast]
    exact_mod_cast high

theorem ratio_bounds {num den : Nat} (above : 0 < num) (pos : 0 < den) :
    (2 : ℚ) ^ ((num.log2 : ℤ) - den.log2 - 1) ≤ num / den ∧
      (num : ℚ) / den < 2 ^ ((num.log2 : ℤ) - den.log2 + 1) := by
  obtain ⟨low, high⟩ := log2_bounds above
  obtain ⟨low', high'⟩ := log2_bounds pos
  have positive : (0 : ℚ) < den := by exact_mod_cast pos
  refine ⟨?_, ?_⟩
  · rw [le_div_iff₀ positive]
    calc (2 : ℚ) ^ ((num.log2 : ℤ) - den.log2 - 1) * den
        ≤ 2 ^ ((num.log2 : ℤ) - den.log2 - 1) * 2 ^ ((den.log2 : ℤ) + 1) := by gcongr
      _ = 2 ^ (num.log2 : ℤ) := by
        rw [← zpow_add₀ (by norm_num)]
        congr 1
        ring
      _ ≤ num := low
  · rw [div_lt_iff₀ positive]
    calc (num : ℚ) < 2 ^ ((num.log2 : ℤ) + 1) := high
      _ = 2 ^ ((num.log2 : ℤ) - den.log2 + 1) * 2 ^ (den.log2 : ℤ) := by
        rw [← zpow_add₀ (by norm_num)]
        congr 1
        ring
      _ ≤ 2 ^ ((num.log2 : ℤ) - den.log2 + 1) * den := by gcongr

theorem scaled_lt_iff {num den : Nat} (pos : 0 < den) (exponent : Int) :
    (scaleBack num den exponent).1 / (scaleBack num den exponent).2 < Nat.pow 2 53 ↔
      (num : ℚ) / den < 2 ^ (53 + exponent) := by
  obtain ⟨positive, scaled⟩ := scaleBack_spec num pos exponent
  have cast : (0 : ℚ) < (scaleBack num den exponent).2 := by exact_mod_cast positive
  rw [Nat.div_lt_iff_lt_mul positive, zpow_add₀ (by norm_num), ← div_lt_iff₀ (two_zpow_pos _),
    ← scaled, div_lt_iff₀ cast]
  exact_mod_cast Iff.rfl

theorem topExponent_spec {num den : Nat} (above : 0 < num) (pos : 0 < den) :
    (2 : ℚ) ^ (52 + topExponent num den) ≤ num / den ∧
      (num : ℚ) / den < 2 ^ (53 + topExponent num den) := by
  obtain ⟨low, high⟩ := ratio_bounds above pos
  unfold topExponent
  dsimp only
  split
  · next narrow =>
    refine ⟨le_of_eq_of_le (congrArg _ ?_) low, (scaled_lt_iff pos _).mp narrow⟩
    ring
  · next wide =>
    rw [scaled_lt_iff pos, not_lt] at wide
    refine ⟨le_of_eq_of_le (congrArg _ ?_) wide, lt_of_lt_of_eq high (congrArg _ ?_)⟩
    · ring
    · ring

/-- The exponent is the one under which the fraction has a mantissa of the full width. -/
theorem topExponent_unique {num den : Nat} (above : 0 < num) (pos : 0 < den) {exponent : Int}
    (low : (2 : ℚ) ^ (52 + exponent) ≤ num / den) (high : (num : ℚ) / den < 2 ^ (53 + exponent)) :
    topExponent num den = exponent := by
  obtain ⟨low', high'⟩ := topExponent_spec above pos
  have first := (zpow_lt_zpow_iff_right₀ (by norm_num : (1 : ℚ) < 2)).mp (low.trans_lt high')
  have second := (zpow_lt_zpow_iff_right₀ (by norm_num : (1 : ℚ) < 2)).mp (low'.trans_lt high)
  omega

theorem topExponent_le {num den : Nat} (above : 0 < num) (pos : 0 < den) {exponent : Int}
    (high : (num : ℚ) / den < 2 ^ (53 + exponent)) : topExponent num den ≤ exponent := by
  obtain ⟨low', -⟩ := topExponent_spec above pos
  have second := (zpow_lt_zpow_iff_right₀ (by norm_num : (1 : ℚ) < 2)).mp (low'.trans_lt high)
  omega

theorem roundHalfEven_scaled {num den m : Nat} (pos : 0 < den) {exponent : Int}
    (low : ((m : ℚ) - 1 / 2) * 2 ^ exponent ≤ num / den)
    (high : (num : ℚ) / den ≤ (m + 1 / 2) * 2 ^ exponent)
    (tie : m % 2 = 0 ∨ ((m : ℚ) - 1 / 2) * 2 ^ exponent < num / den ∧
      (num : ℚ) / den < (m + 1 / 2) * 2 ^ exponent) :
    roundHalfEven (scaleBack num den exponent).1 (scaleBack num den exponent).2 = m := by
  obtain ⟨positive, scaled⟩ := scaleBack_spec num pos exponent
  have cast : (0 : ℚ) < (scaleBack num den exponent).2 := by exact_mod_cast positive
  have unit := two_zpow_pos exponent
  rw [← le_div_iff₀ unit, ← scaled, le_div_iff₀ cast] at low
  rw [← div_le_iff₀ unit, ← scaled, div_le_iff₀ cast] at high
  rw [← lt_div_iff₀ unit, ← scaled, lt_div_iff₀ cast, ← div_lt_iff₀ unit, ← scaled,
    div_lt_iff₀ cast] at tie
  generalize (scaleBack num den exponent).1 = a at *
  generalize (scaleBack num den exponent).2 = b at *
  refine roundHalfEven_eq positive ?_ ?_ ?_
  · have : (2 * (m * b) : ℚ) ≤ 2 * a + b := by linarith
    exact_mod_cast this
  · have : (2 * a : ℚ) ≤ 2 * (m * b) + b := by linarith
    exact_mod_cast this
  · refine tie.imp_right fun ⟨left, right⟩ => ⟨?_, ?_⟩
    · have : (2 * (m * b) : ℚ) < 2 * a + b := by linarith
      exact_mod_cast this
    · have : (2 * a : ℚ) < 2 * (m * b) + b := by linarith
      exact_mod_cast this

end Binary64

open Binary64

/-! ## Intervals -/

namespace Interval

variable {mantissa : Nat} {exponent : Int}

theorem unit_of (mantissa : Nat) (exponent : Int) :
    0 < (Interval.of mantissa exponent).num ∧ 0 < (Interval.of mantissa exponent).den ∧
      ((Interval.of mantissa exponent).num : ℚ) / (Interval.of mantissa exponent).den =
        2 ^ (exponent - 2) := by
  obtain ⟨positive, scaled⟩ := scaleBack_spec 1 Nat.one_pos (exponent - 2)
  rw [Nat.cast_one, div_one, one_div] at scaled
  have den : (0 : ℚ) < (scaleBack 1 1 (exponent - 2)).1 := by
    have cast : (0 : ℚ) < (scaleBack 1 1 (exponent - 2)).2 := by exact_mod_cast positive
    refine pos_of_mul_pos_left (b := ((scaleBack 1 1 (exponent - 2)).2 : ℚ)⁻¹) ?_
      (inv_nonneg.mpr cast.le)
    rw [← div_eq_mul_inv, scaled]
    exact inv_pos.mpr (two_zpow_pos _)
  refine ⟨positive, by exact_mod_cast den, ?_⟩
  show ((scaleBack 1 1 (exponent - 2)).2 : ℚ) / (scaleBack 1 1 (exponent - 2)).1 = _
  rw [← inv_div, scaled, inv_inv]

/-- The fraction lies between the ends of the interval, which belong to it for an even mantissa. -/
theorem contains_iff {a b : Nat} (pos : 0 < b) :
    (Interval.of mantissa exponent).contains a b = true ↔
      (((Interval.of mantissa exponent).low : ℚ) * 2 ^ (exponent - 2) ≤ a / b ∧
        (a : ℚ) / b ≤ (4 * mantissa + 2) * 2 ^ (exponent - 2)) ∧
      (mantissa % 2 = 0 ∨
        ((Interval.of mantissa exponent).low : ℚ) * 2 ^ (exponent - 2) < a / b ∧
          (a : ℚ) / b < (4 * mantissa + 2) * 2 ^ (exponent - 2)) := by
  obtain ⟨num, den, unit⟩ := unit_of mantissa exponent
  have closed : (Interval.of mantissa exponent).closed = decide (mantissa % 2 = 0) := rfl
  have high : (Interval.of mantissa exponent).high = 4 * mantissa + 2 := rfl
  have below : (0 : ℚ) < b := by exact_mod_cast pos
  have under : (0 : ℚ) < (Interval.of mantissa exponent).den := by exact_mod_cast den
  rw [← unit, contains, closed, high]
  generalize (Interval.of mantissa exponent).low = low
  generalize (Interval.of mantissa exponent).num = n at *
  generalize (Interval.of mantissa exponent).den = d at *
  have least : low * (b * n) ≤ a * d ↔ (low : ℚ) * (n / d) ≤ a / b := by
    rw [← mul_div_assoc, div_le_div_iff₀ under below]
    norm_cast
    rw [Nat.mul_assoc, Nat.mul_comm n b]
  have least' : low * (b * n) < a * d ↔ (low : ℚ) * (n / d) < a / b := by
    rw [← mul_div_assoc, div_lt_div_iff₀ under below]
    norm_cast
    rw [Nat.mul_assoc, Nat.mul_comm n b]
  have most : a * d ≤ (4 * mantissa + 2) * (b * n) ↔
      (a : ℚ) / b ≤ (4 * mantissa + 2) * (n / d) := by
    rw [← mul_div_assoc, div_le_div_iff₀ below under]
    norm_cast
    rw [Nat.mul_assoc, Nat.mul_comm n b]
  have most' : a * d < (4 * mantissa + 2) * (b * n) ↔
      (a : ℚ) / b < (4 * mantissa + 2) * (n / d) := by
    rw [← mul_div_assoc, div_lt_div_iff₀ below under]
    norm_cast
    rw [Nat.mul_assoc, Nat.mul_comm n b]
  rw [← least, ← least', ← most, ← most']
  by_cases even : mantissa % 2 = 0
  · simp [even]
  · simp only [even, decide_false, Bool.false_eq_true, if_false, false_or, Bool.and_eq_true,
      decide_eq_true_eq]
    exact ⟨fun inside => ⟨⟨inside.1.le, inside.2.le⟩, inside⟩, fun inside => inside.2⟩

/-- The lower end is a half of the unit below the number, or a quarter of it below a power of
two. -/
theorem low_of (mantissa : Nat) (exponent : Int) :
    (Interval.of mantissa exponent).low =
      if mantissa = 2 ^ 52 ∧ -1074 < exponent then 4 * mantissa - 1 else 4 * mantissa - 2 := rfl

end Interval

namespace Binary64

variable {mantissa : Nat} {exponent : Int}

theorem quarter (x : ℚ) (exponent : Int) : x * 2 ^ (exponent - 2) = x / 4 * 2 ^ exponent := by
  rw [zpow_sub₀ (by norm_num)]
  norm_num
  ring

/-- Where the chosen exponent and the rounded mantissa make up the number, the fraction is rounded
to it. -/
theorem ofRatio_of_size (negative : Bool) {a b : Nat} (canonical : Canonical mantissa exponent)
    (nonzero : a ≠ 0) {chosen : Int} {rounded : Nat} (top : max (topExponent a b) (-1074) = chosen)
    (round : roundHalfEven (scaleBack a b chosen).1 (scaleBack a b chosen).2 = rounded)
    (size : (chosen + 1074).toNat * 2 ^ 52 + rounded = magnitude mantissa exponent) :
    ofRatio negative a b = ofMagnitude negative (magnitude mantissa exponent) := by
  obtain ⟨small, low, high, -⟩ := canonical
  rw [ofRatio_eq negative b nonzero, top]
  dsimp only
  rw [round, show Nat.pow 2 52 = 2 ^ 52 from rfl, size, if_neg]
  rw [magnitude]
  omega

theorem ends (filled : mantissa ≠ 0) :
    ((4 * mantissa - 2 : Nat) : ℚ) / 4 = mantissa - 1 / 2 ∧
      ((4 * mantissa - 1 : Nat) : ℚ) / 4 = mantissa - 1 / 4 ∧
        ((4 : ℚ) * mantissa + 2) / 4 = mantissa + 1 / 2 := by
  refine ⟨?_, ?_, by ring⟩
  · rw [Nat.cast_sub (by omega)]
    push_cast
    ring
  · rw [Nat.cast_sub (by omega)]
    push_cast
    ring

/-- A fraction in the interval is at most half a unit away from the number, and less than that
unless the mantissa is even. -/
theorem near_of_contains {a b : Nat} (filled : mantissa ≠ 0) (pos : 0 < b)
    (h : (Interval.of mantissa exponent).contains a b = true) :
    ((mantissa : ℚ) - 1 / 2) * 2 ^ exponent ≤ a / b ∧
      (a : ℚ) / b ≤ (mantissa + 1 / 2) * 2 ^ exponent ∧
      (mantissa % 2 = 0 ∨ ((mantissa : ℚ) - 1 / 2) * 2 ^ exponent < a / b ∧
        (a : ℚ) / b < (mantissa + 1 / 2) * 2 ^ exponent) := by
  obtain ⟨⟨least, most⟩, tie⟩ := (Interval.contains_iff pos).mp h
  obtain ⟨half, quarterEnd, top⟩ := ends filled
  have unit := two_zpow_pos exponent
  rw [quarter, top] at most
  rw [quarter, quarter, top] at tie
  rw [quarter] at least
  rw [Interval.low_of] at least tie
  split at least
  · next narrow =>
    rw [quarterEnd] at least
    refine ⟨le_trans ?_ least, most, .inl (by rw [narrow.1]; decide)⟩
    gcongr
    norm_num
  · next plain =>
    rw [if_neg plain, half] at tie
    rw [half] at least
    exact ⟨least, most, tie⟩

theorem near_below_power {a b : Nat} (pos : 0 < b) (inner : -1074 < exponent)
    (h : (Interval.of (2 ^ 52) exponent).contains a b = true) :
    ((2 : ℚ) ^ 53 - 1 / 2) * 2 ^ (exponent - 1) ≤ a / b := by
  obtain ⟨⟨least, -⟩, -⟩ := (Interval.contains_iff pos).mp h
  rw [quarter, Interval.low_of, if_pos ⟨rfl, inner⟩, (ends (by decide)).2.1] at least
  refine le_of_eq_of_le ?_ least
  rw [zpow_sub₀ (by norm_num)]
  push_cast
  ring

/-- A fraction below a power of two, in its interval, has the next smaller exponent, and is rounded
up to the power. -/
theorem ofRatio_below_power (negative : Bool) {a b : Nat} (canonical : Canonical (2 ^ 52) exponent)
    (inner : -1074 < exponent) (positive : 0 < a) (pos : 0 < b)
    (under : (a : ℚ) / b < 2 ^ (52 + exponent))
    (h : (Interval.of (2 ^ 52) exponent).contains a b = true) :
    ofRatio negative a b = ofMagnitude negative (magnitude (2 ^ 52) exponent) := by
  have close := near_below_power pos inner h
  have under' : (a : ℚ) / b < 2 ^ (53 + (exponent - 1)) :=
    lt_of_lt_of_eq under (congrArg _ (by ring))
  have top : topExponent a b = exponent - 1 := by
    refine topExponent_unique positive pos (le_trans ?_ close) under'
    rw [zpow_add₀ (by norm_num)]
    gcongr
    norm_num
  have round : roundHalfEven (scaleBack a b (exponent - 1)).1 (scaleBack a b (exponent - 1)).2 =
      2 ^ 53 := by
    refine roundHalfEven_scaled pos ?_ ?_ (.inl (by decide))
    · exact_mod_cast close
    · refine under'.le.trans ?_
      rw [zpow_add₀ (by norm_num)]
      gcongr
      norm_num
  refine ofRatio_of_size negative canonical positive.ne' ?_ round ?_
  · rw [top]
    omega
  · rw [magnitude]
    omega

theorem topExponent_of_near {a b : Nat} (canonical : Canonical mantissa exponent) (positive : 0 < a)
    (pos : 0 < b) (least : ((mantissa : ℚ) - 1 / 2) * 2 ^ exponent ≤ a / b)
    (below : (a : ℚ) / b < 2 ^ (53 + exponent))
    (plain : mantissa = 2 ^ 52 → -1074 < exponent → (2 : ℚ) ^ (52 + exponent) ≤ a / b) :
    max (topExponent a b) (-1074) = exponent := by
  obtain ⟨-, low, -, wide⟩ := canonical
  rcases eq_or_lt_of_le low with smallest | inner
  · have := topExponent_le positive pos below
    omega
  · have full : 2 ^ 52 ≤ mantissa := wide.resolve_right (by omega)
    have above : (2 : ℚ) ^ (52 + exponent) ≤ a / b := by
      rcases eq_or_lt_of_le full with power | more
      · exact plain power.symm inner
      · have beyond : (4503599627370497 : ℚ) ≤ mantissa := by exact_mod_cast more
        refine le_trans ?_ least
        rw [zpow_add₀ (by norm_num)]
        gcongr
        norm_num
        linarith
    rw [topExponent_unique positive pos above below]
    omega

/-- Every fraction in the interval of a number is rounded to it. -/
theorem ofRatio_of_contains (negative : Bool) {a b : Nat} (canonical : Canonical mantissa exponent)
    (filled : mantissa ≠ 0) (pos : 0 < b)
    (h : (Interval.of mantissa exponent).contains a b = true) :
    ofRatio negative a b = ofMagnitude negative (magnitude mantissa exponent) := by
  obtain ⟨least, most, tie⟩ := near_of_contains filled pos h
  have unit := two_zpow_pos exponent
  have nonzero : a ≠ 0 := by
    rintro rfl
    have one : (1 : ℚ) ≤ mantissa := by exact_mod_cast Nat.one_le_iff_ne_zero.mpr filled
    rw [Nat.cast_zero, zero_div] at least
    nlinarith
  have positive : 0 < a := Nat.pos_of_ne_zero nonzero
  have below : (a : ℚ) / b < 2 ^ (53 + exponent) := by
    have width : (mantissa : ℚ) + 1 ≤ 2 ^ 53 := by exact_mod_cast canonical.small
    rw [zpow_add₀ (by norm_num)]
    refine most.trans_lt (mul_lt_mul_of_pos_right ?_ unit)
    norm_num at width ⊢
    linarith
  by_cases crossing : (mantissa = 2 ^ 52 ∧ -1074 < exponent) ∧ (a : ℚ) / b < 2 ^ (52 + exponent)
  · obtain ⟨⟨rfl, inner⟩, under⟩ := crossing
    exact ofRatio_below_power negative canonical inner positive pos under h
  · have top := topExponent_of_near canonical positive pos least below fun power inner =>
      le_of_not_gt fun under => crossing ⟨⟨power, inner⟩, under⟩
    exact ofRatio_of_size negative canonical nonzero top
      (roundHalfEven_scaled pos least most tie) rfl

end Binary64
end Infra.Decimal
