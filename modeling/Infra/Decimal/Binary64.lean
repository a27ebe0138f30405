/-!
# Double-precision numbers

A number of the binary64 format as its sixty-four bits, and the two ways in and out of it that the
library needs: the exact value that the bits stand for, and the number nearest to a fraction.

* `Binary64.parts` : sign, mantissa and exponent of the exact value `mantissa * 2 ^ exponent`;
* `Binary64.ofRatio` : the nearest number to a fraction, of two equally near ones the even one;
* `Binary64.toInt?` : the integer that a number equals, if it equals one.
-/

namespace Infra.Decimal

/-- A number of the binary64 format. -/
structure Binary64 where
  bits : UInt64
  deriving DecidableEq, Repr

namespace Binary64

/-- What the bits stand for; a finite number is `mantissa * 2 ^ exponent`. -/
inductive Parts
  | notANumber
  | infinite (negative : Bool)
  | finite (negative : Bool) (mantissa : Nat) (exponent : Int)
  deriving DecidableEq, Repr

/-- The sign, mantissa and exponent that the bits encode. -/
def parts (x : Binary64) : Parts :=
  let n := x.bits.toNat
  let negative := Nat.pow 2 63 ≤ n
  let biased : Nat := n / Nat.pow 2 52 % Nat.pow 2 11
  let fraction : Nat := n % Nat.pow 2 52
  if biased = 2047 then
    if fraction = 0 then .infinite negative else .notANumber
  else if biased = 0 then .finite negative fraction (-1074)
  else .finite negative (Nat.pow 2 52 + fraction) ((biased : Int) - 1075)

/-- The number with the given sign and magnitude bits. -/
def ofMagnitude (negative : Bool) (magnitude : Nat) : Binary64 :=
  ⟨UInt64.ofNat (magnitude + if negative then Nat.pow 2 63 else 0)⟩

def notANumber : Binary64 := ⟨0x7ff8000000000000⟩

def infinity (negative : Bool) : Binary64 := ofMagnitude negative (2047 * Nat.pow 2 52)

def zero (negative : Bool) : Binary64 := ofMagnitude negative 0

/-- The quotient rounded to the nearest integer, a half to the even one. -/
def roundHalfEven (num den : Nat) : Nat :=
  let quotient := num / den
  let twice := 2 * (num % den)
  if twice < den ∨ (twice = den ∧ quotient % 2 = 0) then quotient else quotient + 1

/-- The fraction `num / (den * 2 ^ exponent)` as a numerator and a denominator. -/
def scaleBack (num den : Nat) (exponent : Int) : Nat × Nat :=
  match exponent with
  | .ofNat k => (num, den * Nat.pow 2 k)
  | .negSucc k => (num * Nat.pow 2 (k + 1), den)

/-- The number nearest to `num / den`, of two equally near ones the one with an even mantissa; a
fraction beyond the largest number is infinite. -/
def ofRatio (negative : Bool) (num den : Nat) : Binary64 :=
  if num = 0 then zero negative
  else
    let guess : Int := (num.log2 : Int) - den.log2 - 53
    let (a, b) := scaleBack num den guess
    let exponent := max (if a / b < Nat.pow 2 53 then guess else guess + 1) (-1074)
    let (a, b) := scaleBack num den exponent
    let magnitude := (exponent + 1074).toNat * Nat.pow 2 52 + roundHalfEven a b
    if 2047 * Nat.pow 2 52 ≤ magnitude then infinity negative else ofMagnitude negative magnitude

/-- The integer that the number equals. -/
def toInt? (x : Binary64) : Option Int :=
  match x.parts with
  | .finite negative mantissa exponent =>
    let size? : Option Nat := match exponent with
      | .ofNat k => some (mantissa * Nat.pow 2 k)
      | .negSucc k =>
        if mantissa % Nat.pow 2 (k + 1) = 0 then some (mantissa / Nat.pow 2 (k + 1)) else none
    size?.map fun size => if negative then -(size : Int) else size
  | _ => none

/-- Whether the number is a zero of either sign. -/
def isZero (x : Binary64) : Bool := x.toInt? == some 0

end Binary64
end Infra.Decimal
