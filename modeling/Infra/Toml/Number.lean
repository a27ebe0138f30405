import Infra.Decimal.Reading
import Infra.Json.Reader
import Infra.Toml.Text

/-!
# Numbers of TOML

Digits may be parted by single underscores. An integer is decimal, or has a base mark; a number
with a fraction or an exponent, an infinity and `nan` are floating.

* `Toml.readDigits?` : a run of digits;
* `Toml.readNumber?` : a number, if one stands here.

A decimal integer has a greatest number of digits, beyond which it is refused.
-/

namespace Infra.Toml

open Decimal (isDigit natOfDigits Scientific Binary64 readExponent?)

/-- The digits that follow a digit, without the underscores between them. -/
def moreDigits (isDigit : Char → Bool) : List Char → List Char × List Char
  | '_' :: c :: rest =>
    if isDigit c then
      let (digits, after) := moreDigits isDigit rest
      (c :: digits, after)
    else ([], '_' :: c :: rest)
  | c :: rest =>
    if isDigit c then
      let (digits, after) := moreDigits isDigit rest
      (c :: digits, after)
    else ([], c :: rest)
  | [] => ([], [])

/-- Reads a run of digits, without the underscores between them. -/
def readDigits? (isDigit : Char → Bool) : List Char → Option (List Char × List Char)
  | c :: rest =>
    if isDigit c then
      let (digits, after) := moreDigits isDigit rest
      some (c :: digits, after)
    else none
  | [] => none

/-- The number that digits spell in a base. -/
def natOfBase (base : Nat) (digits : List Char) : Nat :=
  digits.foldl (fun n c => base * n + (Json.hexValue? c).getD 0) 0

/-- Whether the character is a digit of a base up to sixteen. -/
def isDigitOf (base : Nat) (c : Char) : Bool :=
  match Json.hexValue? c with
  | some d => d < base
  | none => false

/-- Reads an integer with a base mark. -/
def readMarked? : List Char → Option (Nat × List Char)
  | '0' :: mark :: rest => do
    let base ← [('x', 16), ('o', 8), ('b', 2)].lookup mark
    let (digits, after) ← readDigits? (isDigitOf base) rest
    some (natOfBase base digits, after)
  | _ => none

/-- Reads the integer digits of a decimal: a zero alone, or digits that do not begin with one. -/
def readWhole? : List Char → Option (List Char × List Char)
  | '0' :: rest => some (['0'], rest)
  | cs => readDigits? isDigit cs

/-- Reads the digits after a point; none if no digit follows one. -/
def readFraction (cs : List Char) : List Char × List Char :=
  match cs with
  | '.' :: rest => (readDigits? isDigit rest).getD ([], cs)
  | _ => ([], cs)

/-- Reads the sign and the digits of an exponent; none if no digit follows its mark. -/
def readExponent (cs : List Char) : List Char × List Char :=
  match cs with
  | mark :: rest =>
    if mark == 'e' || mark == 'E' then
      let (sign, digits) := match rest with
        | '-' :: more => (['-'], more)
        | '+' :: more => (['+'], more)
        | more => ([], more)
      match readDigits? isDigit digits with
      | some (found, after) => (sign ++ found, after)
      | none => ([], cs)
    else ([], cs)
  | [] => ([], [])

/-- An optional sign, and whether it is a minus. -/
def readSign : List Char → Bool × List Char
  | '-' :: rest => (true, rest)
  | '+' :: rest => (false, rest)
  | cs => (false, cs)

/-- The longest decimal integer that is read, in digits. -/
def digitLimit : Nat := 4300

/-- Reads an infinity or `nan`. -/
def readSpecial? (cs : List Char) : Option (Binary64 × List Char) :=
  let (negative, body) := readSign cs
  if "inf".toList.isPrefixOf body then some (.infinity negative, body.drop 3)
  else if "nan".toList.isPrefixOf body then some (.notANumber, body.drop 3)
  else none

/-- Reads a decimal, which is an integer if it has neither a fraction nor an exponent. -/
def readDecimal? (cs : List Char) : Option (Except Fault (Datum × List Char)) := do
  let (negative, body) := readSign cs
  let (whole, rest) ← readWhole? body
  let (fraction, rest) := readFraction rest
  let (exponent, rest) := readExponent rest
  if fraction.isEmpty && exponent.isEmpty then
    if digitLimit < whole.length then
      some (.error (.badValue (Json.ReadFault.text [] (.tooManyDigits whole.length))))
    else
      let n := (natOfDigits whole : Int)
      some (.ok (.int (if negative then -n else n), rest))
  else
    let e := (readExponent? exponent).getD 0
    some (.ok (.leaf (.float (Scientific.ofParts negative whole fraction e).toBinary64), rest))

/-- Reads a number, if one stands here. -/
def readNumber? (cs : List Char) : Option (Except Fault (Datum × List Char)) :=
  match readMarked? cs with
  | some (n, rest) => some (.ok (.int n, rest))
  | none =>
    (readDecimal? cs).or ((readSpecial? cs).map fun (x, rest) => .ok (.leaf (.float x), rest))

end Infra.Toml
