import Infra.Json.Reader
import Infra.Json.Writer
import Mathlib.Algebra.Group.Nat.Defs
import Mathlib.Data.List.Basic
import Mathlib.Tactic.SplitIfs

/-!
# Written texts are read back

* `Json.hexNumber?_hexDigits` : hexadecimal digits spell their number;
* `Json.readChars_stringChar` : the written form of a character is read as the character, whether
  it stands for itself, is a short escape, or is spelled by one or two UTF-16 units;
* `Json.readChars_stringChars` : a text between quotes is read as the text.
-/

namespace Infra.Json

open Text (hexDigit hexDigits)

/-! ## Units -/

theorem hexValue?_hexDigit : ∀ n < 16, hexValue? (hexDigit n) = some n := by decide

theorem hexNumber?_hexDigits {n : Nat} (width : Nat) (small : n < 16 ^ width) :
    hexNumber? (hexDigits n width) = some n := by
  induction width generalizing n with
  | zero =>
    obtain rfl : n = 0 := by simpa using small
    rfl
  | succ width ih =>
    have low : n % 16 < 16 := Nat.mod_lt n (by decide)
    have high : n / 16 < 16 ^ width := by
      rw [pow_succ] at small
      omega
    have concat : ∀ cs c, hexNumber? (cs ++ [c]) =
        (hexNumber? cs).bind fun n => (hexValue? c).map fun d => 16 * n + d :=
      fun cs c => List.foldl_concat ..
    rw [hexDigits, concat, ih high, hexValue?_hexDigit _ low]
    exact congrArg some (Nat.div_add_mod n 16)

theorem exists_unitEscape {unit : Nat} (small : unit < 0x10000) : ∃ a b c d,
    unitEscape unit = ['\\', 'u', a, b, c, d] ∧ hexNumber? [a, b, c, d] = some unit :=
  ⟨_, _, _, _, rfl, hexNumber?_hexDigits 4 small⟩

theorem toNat_bounds (c : Char) :
    c.toNat < 0xd800 ∨ 0xe000 ≤ c.toNat ∧ c.toNat < 0x110000 := by
  rcases c.valid with low | ⟨above, high⟩
  · exact .inl low
  · exact .inr ⟨above, high⟩

theorem isHighUnit_toNat (c : Char) : isHighUnit c.toNat = false := by
  have := toNat_bounds c
  rw [isHighUnit, Bool.and_eq_false_iff, decide_eq_false_iff_not, decide_eq_false_iff_not]
  omega

theorem charOfUnit_toNat (c : Char) : charOfUnit c.toNat = c := by
  have := toNat_bounds c
  have low : isLowUnit c.toNat = false := by
    rw [isLowUnit, Bool.and_eq_false_iff, decide_eq_false_iff_not, decide_eq_false_iff_not]
    omega
  rw [charOfUnit, isHighUnit_toNat, low]
  exact Char.ofNat_toNat c

/-! ## Characters -/

variable {opening tail cs after : List Char}

theorem readChars_plain {c : Char} (quote : c ≠ '"') (slash : c ≠ '\\') (visible : 0x20 ≤ c.toNat)
    (h : readChars opening tail = .ok (cs, after)) :
    readChars opening (c :: tail) = .ok (c :: cs, after) := by
  rw [readChars.eq_7 opening c tail quote slash, if_neg (by omega), h]
  rfl

theorem readChars_short {mark c : Char} (short : shortEscape? mark = some c)
    (h : readChars opening tail = .ok (cs, after)) :
    readChars opening ('\\' :: mark :: tail) = .ok (c :: cs, after) := by
  have unit : mark ≠ 'u' := by
    rintro rfl
    cases short
  rw [readChars.eq_6 opening mark tail unit, short, h]
  rfl

theorem readChars_unit {unit : Nat} (small : unit < 0x10000) (single : isHighUnit unit = false)
    (h : readChars opening tail = .ok (cs, after)) :
    readChars opening (unitEscape unit ++ tail) = .ok (charOfUnit unit :: cs, after) := by
  obtain ⟨a, b, c, d, digits, spelled⟩ := exists_unitEscape small
  cases tail with
  | nil => cases h
  | cons next more =>
    rw [digits]
    simp only [List.cons_append, List.nil_append, readChars.eq_4, spelled, single, Bool.false_and,
      Bool.false_eq_true, if_false, h]
    rfl

theorem readChars_pair (high low : Nat) (small : low < 0x10000) (first : isHighUnit high = true)
    (second : isLowUnit low = true) (h : readChars opening tail = .ok (cs, after)) :
    readChars opening (unitEscape high ++ (unitEscape low ++ tail)) =
      .ok (charOfPair high low :: cs, after) := by
  have below : high < 0x10000 := by
    simp only [isHighUnit, Bool.and_eq_true, decide_eq_true_eq] at first
    omega
  obtain ⟨a, b, c, d, digits, spelled⟩ := exists_unitEscape below
  obtain ⟨a', b', c', d', digits', spelled'⟩ := exists_unitEscape small
  cases tail with
  | nil => cases h
  | cons next more =>
    rw [digits, digits']
    simp only [List.cons_append, List.nil_append, readChars.eq_4, spelled, spelled', first, second,
      BEq.rfl, Bool.and_self, if_true, h]
    rfl

/-- The units of a character beyond the first plane are read as the character. -/
theorem readChars_beyond {c : Char} (beyond : 0x10000 ≤ c.toNat)
    (h : readChars opening tail = .ok (cs, after)) :
    readChars opening (unitEscape (0xd800 + (c.toNat - 0x10000) / 0x400) ++
      (unitEscape (0xdc00 + (c.toNat - 0x10000) % 0x400) ++ tail)) = .ok (c :: cs, after) := by
  have bound : c.toNat < 0x110000 := by have := toNat_bounds c; omega
  have same : charOfPair (0xd800 + (c.toNat - 0x10000) / 0x400)
      (0xdc00 + (c.toNat - 0x10000) % 0x400) = c := by
    have sum : 0x10000 + (0xd800 + (c.toNat - 0x10000) / 0x400 - 0xd800) * 0x400 +
        (0xdc00 + (c.toNat - 0x10000) % 0x400 - 0xdc00) = c.toNat := by omega
    rw [charOfPair, sum, Char.ofNat_toNat]
  have read := readChars_pair (0xd800 + (c.toNat - 0x10000) / 0x400)
    (0xdc00 + (c.toNat - 0x10000) % 0x400) (by omega)
    (by simp only [isHighUnit, Bool.and_eq_true, decide_eq_true_eq]; omega)
    (by simp only [isLowUnit, Bool.and_eq_true, decide_eq_true_eq]; omega) h
  rwa [same] at read

/-- The written form of a character is read as the character. -/
theorem readChars_stringChar (c : Char) (h : readChars opening tail = .ok (cs, after)) :
    readChars opening (stringChar c ++ tail) = .ok (c :: cs, after) := by
  unfold stringChar
  simp only [beq_iff_eq, Bool.and_eq_true, decide_eq_true_eq]
  split_ifs with quote slash feed ret tab back form visible plane
  · subst quote
    exact readChars_short rfl h
  · subst slash
    exact readChars_short rfl h
  · subst feed
    exact readChars_short rfl h
  · subst ret
    exact readChars_short rfl h
  · subst tab
    exact readChars_short rfl h
  · subst back
    exact readChars_short rfl h
  · subst form
    exact readChars_short rfl h
  · exact readChars_plain quote slash visible.1 h
  · have read := readChars_unit plane (isHighUnit_toNat c) h
    rwa [charOfUnit_toNat] at read
  · rw [List.append_assoc]
    exact readChars_beyond (Nat.le_of_not_lt plane) h

/-- The characters of a text, up to the closing quote, are read as the text. -/
theorem readChars_stringChars (opening cs rest : List Char) :
    readChars opening (cs.flatMap stringChar ++ '"' :: rest) = .ok (cs, rest) := by
  induction cs with
  | nil => rfl
  | cons c cs ih =>
    rw [List.flatMap_cons, List.append_assoc]
    exact readChars_stringChar c ih

end Infra.Json
