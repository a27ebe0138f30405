import Infra.Json.Reader
import Infra.Json.Writer
import Infra.Proofs.Decimal.Reading
import Mathlib.Tactic.IntervalCases

/-!
# Written numbers are read back

* `Json.Ends` : what may follow a value in a written document;
* `Json.Whole` : the digits before the point of a written number;
* `Json.readNumber?_eq` : what a number is read as, part by part;
* `Json.Spells` : what a text without a sign is read as; `Json.spells_placePoint` : digits with a
  point among or beside them;
* `Json.readNumber?_int`, `Json.readNumber?_float` : the written form of a number is read as it.
-/

namespace Infra.Json

open Decimal

/-! ## Digits -/

/-- What may follow a value in a written document: nothing, a comma or a line break. -/
inductive Ends : List Char → Prop
  | document : Ends []
  | comma (rest : List Char) : Ends (',' :: rest)
  | line (rest : List Char) : Ends ('\n' :: rest)

/-- The document does not go on with a digit. -/
def NoDigit (cs : List Char) : Prop := ∀ c ∈ cs.head?, isDigit c = false

theorem Ends.noDigit {rest : List Char} (ends : Ends rest) : NoDigit rest := by
  cases ends with
  | document => nofun
  | comma rest =>
    rintro _ ⟨⟩
    rfl
  | line rest =>
    rintro _ ⟨⟩
    rfl

theorem span_digits {ds rest : List Char} (all : ∀ c ∈ ds, isDigit c = true)
    (stop : NoDigit rest) :
    (ds ++ rest).takeWhile isDigit = ds ∧ (ds ++ rest).dropWhile isDigit = rest := by
  rw [List.takeWhile_append_of_pos all, List.dropWhile_append_of_pos all]
  cases rest with
  | nil => simp
  | cons c more =>
    have other := stop c rfl
    simp [other]

theorem isDigit_digits (n : Nat) : ∀ c ∈ digits n, isDigit c = true := by
  rw [digits_eq]
  exact fun c mem => Nat.isDigit_of_mem_toDigits (by decide) (by decide) mem

theorem exists_digits {n : Nat} (pos : 0 < n) : ∃ c ds, digits n = c :: ds ∧ c ≠ '0' := by
  simp only [digits_eq]
  induction n using Nat.strongRecOn with
  | ind n ih =>
    rw [Nat.toDigits_eq_if (by decide)]
    split
    · next single => exact ⟨_, [], rfl, by interval_cases n <;> decide⟩
    · next more =>
      obtain ⟨c, ds, eq, first⟩ := ih (n / 10) (by omega) (by omega)
      exact ⟨c, ds ++ [Nat.digitChar (n % 10)], by rw [eq, List.cons_append], first⟩

/-- The digits before the point of a written number: a zero, or digits that do not begin with
one. -/
inductive Whole : List Char → Prop
  | zero : Whole ['0']
  | digits {c : Char} {ds : List Char} : c ≠ '0' → (∀ d ∈ c :: ds, isDigit d = true) →
    Whole (c :: ds)

theorem Whole.exists_head {ds : List Char} (whole : Whole ds) :
    ∃ c rest, ds = c :: rest ∧ isDigit c = true := by
  cases whole with
  | zero => exact ⟨'0', [], rfl, rfl⟩
  | digits _ all => exact ⟨_, _, rfl, all _ List.mem_cons_self⟩

theorem whole_digits (n : Nat) : Whole (Decimal.digits n) := by
  rcases Nat.eq_zero_or_pos n with rfl | pos
  · rw [digits_eq, Nat.toDigits_zero]
    exact .zero
  · obtain ⟨c, ds, eq, first⟩ := exists_digits pos
    exact eq ▸ .digits first (eq ▸ isDigit_digits n)

theorem wholeDigits_eq {ds rest : List Char} (whole : Whole ds) (stop : NoDigit rest) :
    wholeDigits (ds ++ rest) = (ds, rest) := by
  cases whole with
  | zero => rfl
  | digits first all =>
    obtain ⟨taken, left⟩ := span_digits all stop
    rw [List.cons_append] at taken left ⊢
    rw [wholeDigits, taken, left]
    exact fun _ same => first (List.cons.inj same).1

theorem fractionDigits_eq {ds rest : List Char} (filled : ds ≠ [])
    (all : ∀ c ∈ ds, isDigit c = true) (stop : NoDigit rest) :
    fractionDigits ('.' :: (ds ++ rest)) = (ds, rest) := by
  obtain ⟨taken, left⟩ := span_digits all stop
  rw [fractionDigits, taken, left, if_neg (by simpa using filled)]

theorem Ends.fractionDigits {rest : List Char} (ends : Ends rest) :
    fractionDigits rest = ([], rest) := by
  cases ends <;> rfl

theorem Ends.exponentDigits {rest : List Char} (ends : Ends rest) :
    exponentDigits rest = ([], rest) := by
  cases ends <;> rfl

/-- The sign and the digits of an exponent. -/
def exponentBody (e : Int) : List Char := (exponentText e).drop 1

theorem exponentDigits_eq (e : Int) {rest : List Char} (stop : NoDigit rest) :
    exponentDigits (exponentText e ++ rest) = (exponentBody e, rest) ∧
      readExponent? (exponentBody e) = some e := by
  have shown : ∃ ds, exponentText e = 'e' :: (if e < 0 then '-' else '+') :: ds ∧ ds ≠ [] ∧
      (∀ c ∈ ds, isDigit c = true) ∧ natOfDigits ds = e.natAbs := by
    refine ⟨_, rfl, ?_⟩
    obtain ⟨c, ds, eq, -⟩ := (whole_digits e.natAbs).exists_head
    have filled : Decimal.digits e.natAbs ≠ [] := by simp [eq]
    split
    · refine ⟨nofun, List.forall_mem_cons.mpr ⟨rfl, isDigit_digits _⟩, ?_⟩
      exact natOfDigits_digits _
    · exact ⟨filled, isDigit_digits _, natOfDigits_digits _⟩
  obtain ⟨ds, eq, filled, all, number⟩ := shown
  obtain ⟨taken, left⟩ := span_digits all stop
  have body : exponentBody e = (if e < 0 then '-' else '+') :: ds := by rw [exponentBody, eq]; rfl
  have every : ds.all isDigit = true := List.all_eq_true.mpr all
  have some : ds.isEmpty = false := by simpa using filled
  rw [body, eq]
  by_cases negative : e < 0
  · simp only [negative, if_true, List.cons_append, Json.exponentDigits, readExponent?, taken, left,
      every, number, some]
    exact ⟨rfl, congrArg Option.some (by omega)⟩
  · simp only [negative, if_false, List.cons_append, Json.exponentDigits, readExponent?, taken,
      left, every, number, some, Bool.false_eq_true]
    exact ⟨rfl, congrArg Option.some (by omega)⟩

/-! ## Numbers -/

/-- The sign of a written number. -/
def signChars (negative : Bool) : List Char := if negative then ['-'] else []

/-- What a number is read as, part by part. -/
theorem readNumber?_eq {whole rest fraction left exponent after : List Char} (negative : Bool)
    (digits : Whole whole) (stop : NoDigit rest) (point : fractionDigits rest = (fraction, left))
    (mark : exponentDigits left = (exponent, after)) :
    readNumber? (signChars negative ++ (whole ++ rest)) = some (
      if fraction.isEmpty && exponent.isEmpty then
        if readDigitLimit < whole.length then .error (.tooManyDigits whole.length)
        else .ok (.int (if negative then -(natOfDigits whole : Int) else natOfDigits whole), after)
      else .ok (.leaf (.float (Scientific.ofParts negative whole fraction
        ((readExponent? exponent).getD 0)).toBinary64), after)) := by
  have cut := wholeDigits_eq digits stop
  obtain ⟨c, more, eq, digit⟩ := digits.exists_head
  have filled : whole.isEmpty = false := by rw [eq]; rfl
  have plain : c ≠ '-' := by
    rintro rfl
    cases digit
  cases negative with
  | true =>
    simp only [signChars, if_true, List.cons_append, List.nil_append, readNumber?, cut, filled,
      point, mark]
    rfl
  | false =>
    have body : whole ++ rest = c :: (more ++ rest) := by rw [eq]; rfl
    show readNumber? (whole ++ rest) = _
    rw [readNumber?]
    · simp only [cut, filled, point, mark]
      rfl
    · intro _ same
      exact plain (List.cons.inj (body.symm.trans same)).1

theorem readNumber?_positional {whole fraction rest : List Char} (negative : Bool)
    (digits : Whole whole) (filled : fraction ≠ []) (all : ∀ c ∈ fraction, isDigit c = true)
    (ends : Ends rest) :
    readNumber? (signChars negative ++ (whole ++ '.' :: (fraction ++ rest))) = some (.ok
      (.leaf (.float (Scientific.ofParts negative whole fraction 0).toBinary64), rest)) := by
  have stop : NoDigit ('.' :: (fraction ++ rest)) := by
    rintro _ ⟨⟩
    rfl
  have some : fraction.isEmpty = false := by simpa using filled
  rw [readNumber?_eq negative digits stop (fractionDigits_eq filled all ends.noDigit)
    ends.exponentDigits, some]
  rfl

theorem readNumber?_scientific {whole fraction rest : List Char} (negative : Bool)
    (digits : Whole whole) (all : ∀ c ∈ fraction, isDigit c = true) (e : Int) (ends : Ends rest) :
    readNumber? (signChars negative ++ (whole ++
      ((if fraction.isEmpty then [] else '.' :: fraction) ++ (exponentText e ++ rest)))) = some (.ok
      (.leaf (.float (Scientific.ofParts negative whole fraction e).toBinary64), rest)) := by
  obtain ⟨mark, spelled⟩ := exponentDigits_eq e ends.noDigit
  have stop : NoDigit (exponentText e ++ rest) := by
    rintro _ ⟨⟩
    rfl
  have shown : (exponentBody e).isEmpty = false := rfl
  cases fraction with
  | nil =>
    have point : fractionDigits (exponentText e ++ rest) = ([], exponentText e ++ rest) := rfl
    show readNumber? (signChars negative ++ (whole ++ (exponentText e ++ rest))) = _
    rw [readNumber?_eq negative digits stop point mark, shown, spelled]
    rfl
  | cons c fs =>
    have after : NoDigit ('.' :: (c :: fs ++ (exponentText e ++ rest))) := by
      rintro _ ⟨⟩
      rfl
    have point := fractionDigits_eq (List.cons_ne_nil c fs) all stop
    show readNumber? (signChars negative ++
      (whole ++ '.' :: (c :: fs ++ (exponentText e ++ rest)))) = _
    rw [readNumber?_eq negative digits after point mark, shown, spelled]
    rfl

/-! ## Integers -/

theorem toList_toString_int (n : Int) :
    (toString n).toList = signChars (decide (n < 0)) ++ Decimal.digits n.natAbs := by
  rw [Int.toString_eq_repr, Int.repr_eq_if, Decimal.digits, Nat.toString_eq_repr, signChars]
  by_cases negative : n < 0
  · have size : (-n).toNat = n.natAbs := by omega
    rw [if_neg (not_le.mpr negative), size, String.toList_append]
    simp [negative]
  · have size : n.toNat = n.natAbs := by omega
    rw [if_pos (not_lt.mp negative), size]
    simp [negative]

/-- The written form of an integer is read as the integer. -/
theorem readNumber?_int {n : Int} {text : String} (h : intText n = .ok text) {rest : List Char}
    (ends : Ends rest) : readNumber? (text.toList ++ rest) = some (.ok (.int n, rest)) := by
  unfold intText at h
  split at h
  · next small =>
    cases h
    have count : ∀ k, 0 < k → n.natAbs < Nat.pow 10 k → digitCount n.natAbs ≤ k :=
      fun k pos less => (digitCount_le_iff pos).mpr less
    have short : ¬ readDigitLimit < (Decimal.digits n.natAbs).length := by
      rw [← digitCount_eq, not_lt]
      exact count digitLimit (by decide) small
    rw [toList_toString_int, List.append_assoc, readNumber?_eq _ (whole_digits _) ends.noDigit
      ends.fractionDigits ends.exponentDigits, natOfDigits_digits, if_neg short]
    by_cases negative : n < 0
    · have size : -(n.natAbs : Int) = n := by omega
      simp only [negative, decide_true, if_true, size]
      rfl
    · have size : (n.natAbs : Int) = n := by omega
      simp only [negative, decide_false, Bool.false_eq_true, if_false, size]
      rfl
  · cases h

/-! ## Floating numbers -/

theorem natOfDigits_zeros (k : Nat) : natOfDigits (List.replicate k '0') = 0 :=
  Nat.ofDigitChars_replicate_zero

theorem isDigit_zeros (k : Nat) : ∀ d ∈ List.replicate k '0', isDigit d = true := by
  intro d mem
  rw [List.eq_of_mem_replicate mem]
  rfl

/-- The characters, with any sign before them, are read as a decimal of the value. -/
def Spells (cs : List Char) (n : Nat) (e : Int) : Prop :=
  ∀ (negative : Bool) ⦃rest : List Char⦄, Ends rest → ∃ d : Scientific, d.negative = negative ∧
    (d.digits : ℚ) * 10 ^ d.exponent = n * 10 ^ e ∧
    readNumber? (signChars negative ++ (cs ++ rest)) =
      some (.ok (.leaf (.float d.toBinary64), rest))

/-- Digits around a point spell what they are as one number, so many places down. -/
theorem spells_positional {whole fraction : List Char} (digits : Whole whole)
    (filled : fraction ≠ []) (all : ∀ c ∈ fraction, isDigit c = true) {n : Nat} {e : Int}
    (value : (natOfDigits (whole ++ fraction) : ℚ) * 10 ^ (-(fraction.length : Int)) =
      n * 10 ^ e) : Spells (whole ++ '.' :: fraction) n e := by
  intro negative rest ends
  refine ⟨Scientific.ofParts negative whole fraction 0, rfl, ?_, ?_⟩
  · rwa [Scientific.ofParts, zero_sub]
  · rw [List.append_assoc, List.cons_append]
    exact readNumber?_positional negative digits filled all ends

section Point

variable {c : Char} {fs : List Char} (all : ∀ d ∈ c :: fs, isDigit d = true)
include all

theorem spells_small (k : Nat) :
    Spells (['0', '.'] ++ List.replicate k '0' ++ c :: fs) (natOfDigits (c :: fs))
      (-(k + (c :: fs).length : Int)) := by
  have digits : ∀ d ∈ List.replicate k '0' ++ c :: fs, isDigit d = true :=
    List.forall_mem_append.mpr ⟨isDigit_zeros k, all⟩
  refine spells_positional .zero (by simp) digits ?_
  have same : natOfDigits (['0'] ++ (List.replicate k '0' ++ c :: fs)) =
      natOfDigits (c :: fs) := by
    rw [← List.append_assoc, natOfDigits_append]
    exact (congrArg (_ * · + _) (natOfDigits_zeros (k + 1))).trans (Nat.zero_add _)
  rw [same, List.length_append, List.length_replicate, Nat.cast_add]

variable (first : c ≠ '0')
include first

/-- The point stands after the first digit, and an exponent follows. -/
theorem spells_scientific (e : Int) :
    Spells ([c] ++ (if fs.isEmpty then [] else '.' :: fs) ++
      exponentText ((c :: fs).length + e - 1)) (natOfDigits (c :: fs)) e := by
  intro negative rest ends
  obtain ⟨digit, later⟩ := List.forall_mem_cons.mp all
  have digits : Whole [c] := .digits first (List.forall_mem_singleton.mpr digit)
  refine ⟨Scientific.ofParts negative [c] fs ((c :: fs).length + e - 1), rfl, ?_, ?_⟩
  · have places : ((c :: fs).length + e - 1 - fs.length : Int) = e := by
      rw [List.length_cons]
      omega
    rw [Scientific.ofParts, places]
    rfl
  · rw [List.append_assoc, List.append_assoc]
    exact readNumber?_scientific negative digits later _ ends

theorem spells_large (k : Nat) :
    Spells (c :: fs ++ List.replicate k '0' ++ ['.', '0']) (natOfDigits (c :: fs)) k := by
  have digits : Whole (c :: fs ++ List.replicate k '0') :=
    .digits first (List.forall_mem_append.mpr ⟨all, isDigit_zeros k⟩)
  have zero : ∀ d ∈ ['0'], isDigit d = true := isDigit_zeros 1
  refine spells_positional digits (by simp) zero ?_
  have value : natOfDigits (c :: fs ++ List.replicate k '0' ++ ['0']) =
      10 * (10 ^ k * natOfDigits (c :: fs)) := by
    rw [natOfDigits_append, natOfDigits_append, natOfDigits_zeros, List.length_replicate]
    rfl
  rw [value, zpow_natCast]
  push_cast
  norm_num
  ring

theorem spells_inner {k : Nat} (inner : k < fs.length) :
    Spells ((c :: fs).take (k + 1) ++ '.' :: (c :: fs).drop (k + 1)) (natOfDigits (c :: fs))
      (k + 1 - (c :: fs).length : Int) := by
  obtain ⟨digit, later⟩ := List.forall_mem_cons.mp all
  have digits : Whole (c :: fs.take k) := .digits first <| List.forall_mem_cons.mpr
    ⟨digit, fun d mem => later d (List.mem_of_mem_take mem)⟩
  have filled : fs.drop k ≠ [] := by
    rw [Ne, List.drop_eq_nil_iff]
    omega
  refine spells_positional digits filled (fun d mem => later d (List.mem_of_mem_drop mem)) ?_
  have places : -((fs.drop k).length : Int) = k + 1 - (c :: fs).length := by
    rw [List.length_drop, List.length_cons]
    omega
  rw [List.cons_append, List.take_append_drop, places]

end Point

/-- The digits of a number, with the point somewhere among or beside them, spell the value that the
digits and the point give. -/
theorem spells_placePoint {n : Nat} (pos : 0 < n) (e : Int) :
    Spells (placePoint (Decimal.digits n) ((Decimal.digits n).length + e)) n e := by
  have spelled := natOfDigits_digits n
  have all := isDigit_digits n
  obtain ⟨c, fs, eq, first⟩ := exists_digits pos
  rw [eq] at spelled all ⊢
  subst spelled
  unfold placePoint
  dsimp only
  split
  · exact spells_scientific all first e
  split
  · next small =>
    generalize count : (-((c :: fs).length + e)).toNat = k
    obtain rfl : e = -(k + (c :: fs).length : Int) := by omega
    exact spells_small all k
  split
  · next large =>
    generalize count : ((c :: fs).length + e - (c :: fs).length).toNat = k
    obtain rfl : e = k := by omega
    exact spells_large all first k
  · next inner =>
    obtain ⟨k, count⟩ : ∃ k, ((c :: fs).length + e).toNat = k + 1 :=
      Nat.exists_eq_succ_of_ne_zero (by omega)
    rw [count]
    obtain rfl : e = k + 1 - (c :: fs).length := by omega
    rw [List.length_cons] at inner
    exact spells_inner all first (by omega)

open Binary64 in
/-- The written form of a finite number is read as the number. -/
theorem readNumber?_float {x : Binary64} {negative : Bool} {mantissa : Nat} {exponent : Int}
    (parts : x.parts = .finite negative mantissa exponent) {rest : List Char} (ends : Ends rest) :
    readNumber? ((floatText x).toList ++ rest) = some (.ok (.leaf (.float x), rest)) := by
  have written : ∀ body : List Char,
      (if negative then '-' :: body else body) ++ rest = signChars negative ++ (body ++ rest) := by
    intro body
    cases negative <;> rfl
  unfold floatText
  rw [parts]
  dsimp only
  unfold Binary64.text
  rw [parts]
  dsimp only
  rw [String.toList_ofList, written]
  split
  · next empty =>
    subst empty
    have zero : (Scientific.ofParts negative ['0'] ['0'] 0).toBinary64 = .zero negative :=
      Scientific.toBinary64_of_zero rfl
    rw [eq_zero_of_parts parts, ← zero]
    exact readNumber?_positional negative .zero (List.cons_ne_nil _ _)
      (List.forall_mem_singleton.mpr rfl) ends
  · next filled =>
    obtain ⟨canonical, -⟩ := canonical_of_parts parts
    have inside := contains_shortest canonical negative
    generalize shortest mantissa exponent = number at inside ⊢
    obtain ⟨n, e⟩ := number
    dsimp only at inside ⊢
    have nonzero := Scientific.digits_ne_zero_of_contains canonical filled inside
    obtain ⟨d, sign, value, read⟩ :=
      spells_placePoint (Nat.pos_of_ne_zero nonzero) e negative ends
    rw [read, Scientific.toBinary64_of_contains parts filled sign]
    exact contains_of_value value inside

end Infra.Json
