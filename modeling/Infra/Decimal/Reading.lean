import Infra.Decimal.Binary64

/-!
# Reading decimals

* `natOfDigits` : the number that decimal digits spell;
* `Scientific` : a decimal `digits * 10 ^ exponent` with a sign, and the nearest binary64 number;
* `Binary64.read?` : reads a written form back.

A decimal far outside the range of the format is decided by its size alone, so that an exponent of
any length is read without computing its power of ten.
-/

namespace Infra.Decimal

/-- Whether the character is a decimal digit. -/
def isDigit (c : Char) : Bool := '0' ≤ c && c ≤ '9'

/-- The number that decimal digits spell. -/
def natOfDigits (ds : List Char) : Nat :=
  ds.foldl (fun n c => 10 * n + (c.toNat - '0'.toNat)) 0

/-- A signed decimal `digits * 10 ^ exponent`. -/
structure Scientific where
  negative : Bool
  digits : Nat
  exponent : Int
  deriving DecidableEq, Repr

/-- The number of decimal digits. -/
def digitCount (n : Nat) : Nat := (toString n).length

/-- The binary64 number nearest to a decimal. -/
def Scientific.toBinary64 (d : Scientific) : Binary64 :=
  let size := d.exponent + digitCount d.digits
  if d.digits = 0 ∨ size < -330 then .zero d.negative
  else if 310 < size then .infinity d.negative
  else
    match d.exponent with
    | .ofNat k => .ofRatio d.negative (d.digits * Nat.pow 10 k) 1
    | .negSucc k => .ofRatio d.negative d.digits (Nat.pow 10 (k + 1))

/-- The decimal with the given integer digits, fraction digits and exponent. -/
def Scientific.ofParts (negative : Bool) (whole fraction : List Char) (exponent : Int) :
    Scientific :=
  ⟨negative, natOfDigits (whole ++ fraction), exponent - fraction.length⟩

/-- The exponent that an optional sign and digits spell. -/
def readExponent? (cs : List Char) : Option Int :=
  let (negative, ds) := match cs with
    | '-' :: ds => (true, ds)
    | '+' :: ds => (false, ds)
    | ds => (false, ds)
  if ds.isEmpty || !ds.all isDigit then none
  else some (if negative then -(natOfDigits ds : Int) else natOfDigits ds)

/-- Reads a decimal: digits, then an optional fraction and an optional exponent. -/
def Scientific.read? (negative : Bool) (cs : List Char) : Option Scientific :=
  let whole := cs.takeWhile isDigit
  let afterWhole := cs.dropWhile isDigit
  let (fraction, afterFraction) := match afterWhole with
    | '.' :: rest => (rest.takeWhile isDigit, rest.dropWhile isDigit)
    | rest => ([], rest)
  if whole.isEmpty && fraction.isEmpty then none
  else
    match afterFraction with
    | [] => some (.ofParts negative whole fraction 0)
    | c :: rest =>
      if c == 'e' || c == 'E' then
        (readExponent? rest).map (.ofParts negative whole fraction)
      else none

/-- Reads a written form: a decimal, an infinity or `nan`, with an optional sign. -/
def Binary64.read? (text : String) : Option Binary64 :=
  let (negative, body) := match text.toList with
    | '-' :: rest => (true, rest)
    | '+' :: rest => (false, rest)
    | rest => (false, rest)
  match String.ofList body with
  | "inf" => some (.infinity negative)
  | "nan" => some .notANumber
  | _ => (Scientific.read? negative body).map (·.toBinary64)

end Infra.Decimal
