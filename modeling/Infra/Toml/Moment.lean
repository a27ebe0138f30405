import Infra.Decimal.Reading

/-!
# Dates and times of TOML

A date, a time of the day, or both with an optional offset from universal time. They are kept as
the text of their standard form, with at most six digits of a second.

* `Toml.readTime?`, `Toml.readDate?`, `Toml.readOffset` : the parts;
* `Toml.readMoment?` : a date or a time, if one stands here.
-/

namespace Infra.Toml

open Decimal (isDigit natOfDigits)

/-- Reads a number of exactly as many digits in a range. -/
def readField? (count low high : Nat) (cs : List Char) : Option (Nat × List Char) :=
  let digits := cs.take count
  let n := natOfDigits digits
  if digits.length = count ∧ digits.all isDigit ∧ low ≤ n ∧ n ≤ high then
    some (n, cs.drop count)
  else none

/-- Reads a character. -/
def readMark? (mark : Char) : List Char → Option (List Char)
  | c :: rest => if c = mark then some rest else none
  | [] => none

/-- A number with leading zeros. -/
def padded (count n : Nat) : String :=
  let digits := (toString n).toList
  String.ofList (List.replicate (count - digits.length) '0' ++ digits)

/-- The first six digits after a point, filled up with zeros; digits beyond are dropped. -/
def readMicroseconds (cs : List Char) : Nat × List Char :=
  match cs with
  | '.' :: rest =>
    let digits := rest.takeWhile isDigit
    if digits.isEmpty then (0, cs)
    else
      let kept := digits.take 6
      (natOfDigits (kept ++ List.replicate (6 - kept.length) '0'), rest.dropWhile isDigit)
  | _ => (0, cs)

/-- Reads a time of the day. -/
def readTime? (cs : List Char) : Option (String × List Char) := do
  let (hour, cs) ← readField? 2 0 23 cs
  let cs ← readMark? ':' cs
  let (minute, cs) ← readField? 2 0 59 cs
  let cs ← readMark? ':' cs
  let (second, cs) ← readField? 2 0 59 cs
  let (micros, cs) := readMicroseconds cs
  let text := padded 2 hour ++ ":" ++ padded 2 minute ++ ":" ++ padded 2 second
  some (if micros = 0 then text else text ++ "." ++ padded 6 micros, cs)

/-- A date of the calendar. -/
structure Day where
  year : Nat
  month : Nat
  day : Nat
  deriving DecidableEq, Repr

namespace Day

/-- Whether the year has a leap day. -/
def isLeap (year : Nat) : Bool := year % 4 == 0 && (year % 100 != 0 || year % 400 == 0)

/-- The number of days of a month. -/
def daysOf (year month : Nat) : Nat :=
  if month = 2 then (if isLeap year then 29 else 28)
  else if [4, 6, 9, 11].contains month then 30
  else 31

/-- Whether the date exists. -/
def exists? (d : Day) : Bool := 1 ≤ d.year && d.day ≤ daysOf d.year d.month

/-- The standard form of a date. -/
def text (d : Day) : String := padded 4 d.year ++ "-" ++ padded 2 d.month ++ "-" ++ padded 2 d.day

end Day

/-- Reads the digits of a date, which need not exist. -/
def readDate? (cs : List Char) : Option (Day × List Char) := do
  let (year, cs) ← readField? 4 0 9999 cs
  let cs ← readMark? '-' cs
  let (month, cs) ← readField? 2 1 12 cs
  let cs ← readMark? '-' cs
  let (day, cs) ← readField? 2 1 31 cs
  some (⟨year, month, day⟩, cs)

/-- Reads an offset in hours and minutes. -/
def readSignedOffset? : List Char → Option (String × List Char)
  | sign :: cs => do
    if sign ≠ '+' ∧ sign ≠ '-' then none
    let (hours, cs) ← readField? 2 0 23 cs
    let cs ← readMark? ':' cs
    let (minutes, cs) ← readField? 2 0 59 cs
    let shown := if hours = 0 ∧ minutes = 0 then '+' else sign
    some (String.singleton shown ++ padded 2 hours ++ ":" ++ padded 2 minutes, cs)
  | [] => none

/-- Reads an offset, if one stands here. -/
def readOffset (cs : List Char) : String × List Char :=
  match cs with
  | 'Z' :: rest | 'z' :: rest => ("+00:00", rest)
  | _ => (readSignedOffset? cs).getD ("", cs)

/-- Reads the time that may follow a date. -/
def readTimeAfterDate (cs : List Char) : String × List Char :=
  match cs with
  | mark :: rest =>
    if mark == 'T' || mark == 't' || mark == ' ' then
      match readTime? rest with
      | some (time, rest) =>
        let (offset, rest) := readOffset rest
        ("T" ++ time ++ offset, rest)
      | none => ("", cs)
    else ("", cs)
  | [] => ("", cs)

/-- Reads a date or a time, if one stands here; a date that does not exist is refused. -/
def readMoment? (cs : List Char) : Option (Option (String × List Char)) :=
  match readDate? cs with
  | some (date, rest) =>
    if date.exists? then
      let (time, rest) := readTimeAfterDate rest
      some (some (date.text ++ time, rest))
    else some none
  | none => (readTime? cs).map some

end Infra.Toml
