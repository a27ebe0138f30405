import Infra.Decimal.Binary64

/-!
# Shortest decimal text

The text of a number has the fewest digits that read back as the number, and of those the nearest.
The decimals that read back fill an interval around the number, its ends included when the
mantissa is even; the coarsest decimal grid with a point inside gives the digits.

* `Interval.of` : the interval of decimals that read back;
* `Interval.gridPoint?` : the nearest point inside on the grid of one power of ten;
* `shortest` : digits and exponent; `text` : the written form.

The written form is positional from `0.0001` up to below `1e16`, with at least one digit after the
point; any other number has one digit before the point and an exponent of at least two digits.
-/

namespace Infra.Decimal

/-- The decimals that read back as one number, as fractions of the unit `num / den`. -/
structure Interval where
  low : Nat
  middle : Nat
  high : Nat
  closed : Bool
  num : Nat
  den : Nat
  deriving Repr

namespace Interval

/-- The interval around `mantissa * 2 ^ exponent`. Below a power of two the numbers lie twice as
dense, so the lower half is half as wide there. -/
def of (mantissa : Nat) (exponent : Int) : Interval :=
  let low :=
    if mantissa = Nat.pow 2 52 ∧ -1074 < exponent then 4 * mantissa - 1 else 4 * mantissa - 2
  let (den, num) := Binary64.scaleBack 1 1 (exponent - 2)
  ⟨low, 4 * mantissa, 4 * mantissa + 2, mantissa % 2 = 0, num, den⟩

/-- Whether the fraction `a / b` lies in the interval. -/
def contains (i : Interval) (a b : Nat) : Bool :=
  let point := a * i.den
  let unit := b * i.num
  if i.closed then i.low * unit ≤ point && point ≤ i.high * unit
  else i.low * unit < point && point < i.high * unit

/-- The point nearest to the middle, among the points `n * (a / b)` that lie in the interval. -/
def nearest? (i : Interval) (a b : Nat) : Option Nat :=
  let below := i.middle * i.num * b / (i.den * a)
  let above := below + 1
  match i.contains (below * a) b, i.contains (above * a) b with
  | false, false => none
  | true, false => some below
  | false, true => some above
  | true, true =>
    let middle := 2 * (i.middle * i.num * b)
    let halfway := (below + above) * (i.den * a)
    if middle < halfway ∨ (middle = halfway ∧ below % 2 = 0) then some below else some above

/-- The nearest point inside on the grid of multiples of `10 ^ exponent`. -/
def gridPoint? (i : Interval) (exponent : Int) : Option Nat :=
  match exponent with
  | .ofNat k => i.nearest? (Nat.pow 10 k) 1
  | .negSucc k => i.nearest? 1 (Nat.pow 10 (k + 1))

end Interval

/-- The exponents of the decimal grids that binary64 numbers can need, coarsest first. -/
def gridExponents : List Int := (List.range 634).map fun (k : Nat) => 309 - (k : Int)

/-- The digits `d` and the exponent `e` with the shortest `d * 10 ^ e` that reads back as
`mantissa * 2 ^ exponent`. -/
def shortest (mantissa : Nat) (exponent : Int) : Nat × Int :=
  let i := Interval.of mantissa exponent
  let hit? := gridExponents.findSome? fun e => (i.gridPoint? e).map fun digits => (digits, e)
  hit?.getD (0, 0)

/-- The digits of a natural number. -/
def digits (n : Nat) : List Char := (toString n).toList

/-- The exponent part of a written form: a sign and at least two digits. -/
def exponentText (e : Int) : List Char :=
  let ds := digits e.natAbs
  'e' :: (if e < 0 then '-' else '+') :: (if ds.length < 2 then '0' :: ds else ds)

/-- The written form of digits whose point stands after the first `point` of them. -/
def placePoint (ds : List Char) (point : Int) : List Char :=
  let size := (ds.length : Int)
  if point ≤ -4 ∨ 16 < point then
    let fraction := ds.drop 1
    ds.take 1 ++ (if fraction.isEmpty then [] else '.' :: fraction) ++ exponentText (point - 1)
  else if point ≤ 0 then ['0', '.'] ++ List.replicate (-point).toNat '0' ++ ds
  else if size ≤ point then ds ++ List.replicate (point - size).toNat '0' ++ ['.', '0']
  else ds.take point.toNat ++ '.' :: ds.drop point.toNat

/-- The written form of a number. -/
def Binary64.text (x : Binary64) : String :=
  match x.parts with
  | .notANumber => "nan"
  | .infinite negative => if negative then "-inf" else "inf"
  | .finite negative mantissa exponent =>
    let body :=
      if mantissa = 0 then ['0', '.', '0']
      else
        let (number, e) := shortest mantissa exponent
        let ds := digits number
        placePoint ds (ds.length + e)
    String.ofList (if negative then '-' :: body else body)

end Infra.Decimal
