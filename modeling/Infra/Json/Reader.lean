import Infra.Decimal.Reading
import Infra.Fault
import Infra.Room
import Infra.Value

/-!
# Reading JSON

A document is one value between blanks. Beside standard JSON the words `NaN`, `Infinity` and
`-Infinity` are numbers, and of repeated keys the last value counts, at the place of the first. Texts
are of characters, of which half of a pair of UTF-16 units is none: it is read as the replacement
character (`Json.charOfUnit`), so texts that differ in such halves alone are read as one.

* `Json.ReadFault` : why a document is refused, and the rest of the document from there on;
* `Json.readChars`, `Json.readNumber?`, `Json.readValueTo` : texts, numbers and values;
* `Json.read` : the value of a document; `Json.readWithin` : where the room for nested parts is
  limited, of which each list and each table takes one call.

Every value uses up a character, so reading goes to the depth of the number of characters.
-/

namespace Infra.Json

open Decimal (isDigit natOfDigits Scientific Binary64 readExponent?)

/-- Why a document is refused. -/
inductive ReadFault
  /-- A complaint and the rest of the document from the place it is about. -/
  | malformed (complaint : String) (rest : List Char)
  /-- An integer has more digits than are read. -/
  | tooManyDigits (count : Nat)
  /-- There is no room for a nested part. -/
  | tooDeep
  deriving DecidableEq, Repr

namespace ReadFault

/-- The number of line breaks, and of the characters after the last of them. -/
def position (before : List Char) : Nat × Nat :=
  (before.count '\n', (before.reverse.takeWhile (· != '\n')).length)

/-- The text of a complaint about a document. -/
def text (document : List Char) : ReadFault → String
  | malformed complaint rest =>
    let offset := document.length - rest.length
    let (line, column) := position (document.take offset)
    complaint ++ ": line " ++ toString (line + 1) ++ " column " ++ toString (column + 1)
      ++ " (char " ++ toString offset ++ ")"
  | tooManyDigits count =>
    "Exceeds the limit (4300 digits) for integer string conversion: value has "
      ++ toString count ++ " digits; use sys.set_int_max_str_digits() to increase the limit"
  | tooDeep => "maximum recursion depth exceeded"

end ReadFault

/-! ## Texts -/

/-- The value of a hexadecimal digit. -/
def hexValue? (c : Char) : Option Nat :=
  if '0' ≤ c ∧ c ≤ '9' then some (c.toNat - '0'.toNat)
  else if 'a' ≤ c ∧ c ≤ 'f' then some (c.toNat - 'a'.toNat + 10)
  else if 'A' ≤ c ∧ c ≤ 'F' then some (c.toNat - 'A'.toNat + 10)
  else none

/-- The number that hexadecimal digits spell. -/
def hexNumber? (cs : List Char) : Option Nat :=
  cs.foldl (fun n? c => n?.bind fun n => (hexValue? c).map fun d => 16 * n + d) (some 0)

/-- Whether a UTF-16 unit is the first of a pair, or the second. -/
def isHighUnit (n : Nat) : Bool := 0xd800 ≤ n && n < 0xdc00
def isLowUnit (n : Nat) : Bool := 0xdc00 ≤ n && n < 0xe000

/-- The character of a UTF-16 unit; half of a pair alone is a replacement character. -/
def charOfUnit (n : Nat) : Char := if isHighUnit n || isLowUnit n then '\ufffd' else Char.ofNat n

/-- The character of a pair of UTF-16 units. -/
def charOfPair (high low : Nat) : Char :=
  Char.ofNat (0x10000 + (high - 0xd800) * 0x400 + (low - 0xdc00))

/-- What a short escape stands for. -/
def shortEscape? (c : Char) : Option Char :=
  match c with
  | '"' => some '"'
  | '\\' => some '\\'
  | '/' => some '/'
  | 'b' => some '\x08'
  | 'f' => some '\x0c'
  | 'n' => some '\n'
  | 'r' => some '\r'
  | 't' => some '\t'
  | _ => none

def badEscape : String := "Invalid \\uXXXX escape"

/-- Reads a text up to its closing quote; `opening` is the document from its opening quote on. -/
def readChars (opening : List Char) :
    List Char → Except ReadFault (List Char × List Char)
  | [] => .error (.malformed "Unterminated string starting at" opening)
  | '"' :: rest => .ok ([], rest)
  | '\\' :: rest =>
    match rest with
    | [] => .error (.malformed "Unterminated string starting at" opening)
    | 'u' :: digits =>
      match digits with
      | a :: b :: c :: d :: next :: more =>
        match hexNumber? [a, b, c, d] with
        | none => .error (.malformed badEscape rest)
        | some high =>
          let single : Except ReadFault (List Char × List Char) := do
            let (cs, after) ← readChars opening (next :: more)
            .ok (charOfUnit high :: cs, after)
          if isHighUnit high && next == '\\' then
            match more with
            | 'u' :: e :: f :: g :: h :: last :: end' =>
              match hexNumber? [e, f, g, h] with
              | none => .error (.malformed badEscape more)
              | some low =>
                if isLowUnit low then do
                  let (cs, after) ← readChars opening (last :: end')
                  .ok (charOfPair high low :: cs, after)
                else single
            | _ => single
          else single
      | _ => .error (.malformed badEscape rest)
    | c :: more =>
      match shortEscape? c with
      | some e => do
        let (cs, after) ← readChars opening more
        .ok (e :: cs, after)
      | none => .error (.malformed "Invalid \\escape" ('\\' :: rest))
  | c :: rest =>
    if c.toNat ≤ 0x1f then .error (.malformed "Invalid control character at" (c :: rest))
    else do
      let (cs, after) ← readChars opening rest
      .ok (c :: cs, after)

/-! ## Numbers -/

/-- The longest integer that is read, in digits. -/
def readDigitLimit : Nat := 4300

/-- The digits before the point: a zero alone, or digits that do not begin with one. -/
def wholeDigits (cs : List Char) : List Char × List Char :=
  match cs with
  | '0' :: rest => (['0'], rest)
  | _ => (cs.takeWhile isDigit, cs.dropWhile isDigit)

/-- The digits after a point, where at least one follows it. -/
def fractionDigits (cs : List Char) : List Char × List Char :=
  match cs with
  | '.' :: rest =>
    if (rest.takeWhile isDigit).isEmpty then ([], cs)
    else (rest.takeWhile isDigit, rest.dropWhile isDigit)
  | _ => ([], cs)

/-- The sign and digits of an exponent, where at least one digit follows its mark. -/
def exponentDigits (cs : List Char) : List Char × List Char :=
  match cs with
  | mark :: rest =>
    if mark == 'e' || mark == 'E' then
      let (sign, digits) := match rest with
        | '-' :: more => (['-'], more)
        | '+' :: more => (['+'], more)
        | more => ([], more)
      if (digits.takeWhile isDigit).isEmpty then ([], cs)
      else (sign ++ digits.takeWhile isDigit, digits.dropWhile isDigit)
    else ([], cs)
  | [] => ([], [])

/-- Reads a number, if one stands here. -/
def readNumber? (cs : List Char) : Option (Except ReadFault (Datum × List Char)) :=
  let (negative, body) := match cs with
    | '-' :: rest => (true, rest)
    | _ => (false, cs)
  let (whole, rest) := wholeDigits body
  if whole.isEmpty then none
  else
    let (fraction, rest) := fractionDigits rest
    let (exponent, rest) := exponentDigits rest
    some <|
      if fraction.isEmpty && exponent.isEmpty then
        if readDigitLimit < whole.length then .error (.tooManyDigits whole.length)
        else
          let n := (natOfDigits whole : Int)
          .ok (.int (if negative then -n else n), rest)
      else
        let e := (readExponent? exponent).getD 0
        .ok (.leaf (.float (Scientific.ofParts negative whole fraction e).toBinary64), rest)

/-! ## Values -/

/-- Whether the character is a blank between the parts of a document. -/
def isBlank (c : Char) : Bool := c == ' ' || c == '\t' || c == '\n' || c == '\r'

/-- The document after the blanks it begins with. -/
def skipBlanks (cs : List Char) : List Char := cs.dropWhile isBlank

/-- The words that are values. -/
def words : List (List Char × Datum) :=
  [("null".toList, .null), ("true".toList, .bool true), ("false".toList, .bool false),
   ("NaN".toList, .leaf (.float .notANumber)),
   ("Infinity".toList, .leaf (.float (.infinity false))),
   ("-Infinity".toList, .leaf (.float (.infinity true)))]

/-- Reads a word, if one stands here. -/
def readWord? (cs : List Char) : Option (Datum × List Char) :=
  (words.find? fun word => word.1.isPrefixOf cs).map fun word =>
    (word.2, cs.drop word.1.length)

mutual

/-- Reads a value, to some depth. -/
def readValueTo : Room → Nat → List Char → Except ReadFault (Datum × List Char)
  | _, 0, cs => .error (.malformed "Expecting value" cs)
  | room, depth + 1, cs =>
    match cs with
    | '"' :: rest => do
      let (text, after) ← readChars cs rest
      .ok (.text (String.ofList text), after)
    | '[' :: rest => do
      let room ← room.enter 1 .tooDeep
      match skipBlanks rest with
      | ']' :: after => .ok (.list [], after)
      | items => do
        let (values, after) ← readItemsTo room depth items
        .ok (.list values, after)
    | '\x7b' :: rest => do
      let room ← room.enter 1 .tooDeep
      match skipBlanks rest with
      | '\x7d' :: after => .ok (.table [], after)
      | entries => do
        let (settings, after) ← readEntriesTo room depth entries
        .ok (.table (Entries.ofList settings), after)
    | _ =>
      match readWord? cs with
      | some found => .ok found
      | none =>
        match readNumber? cs with
        | some found => found
        | none => .error (.malformed "Expecting value" cs)

/-- Reads the items of a list up to its closing bracket. -/
def readItemsTo : Room → Nat → List Char → Except ReadFault (List Datum × List Char)
  | _, 0, cs => .error (.malformed "Expecting value" cs)
  | room, depth + 1, cs => do
    let (value, after) ← readValueTo room depth cs
    match skipBlanks after with
    | ']' :: rest => .ok ([value], rest)
    | ',' :: rest =>
      let (values, after) ← readItemsTo room depth (skipBlanks rest)
      .ok (value :: values, after)
    | rest => .error (.malformed "Expecting ',' delimiter" rest)

/-- Reads the entries of a table up to its closing brace. -/
def readEntriesTo :
    Room → Nat → List Char → Except ReadFault (List (Value × Datum) × List Char)
  | _, 0, cs => .error (.malformed "Expecting value" cs)
  | room, depth + 1, cs => do
    match cs with
    | '"' :: rest =>
      let (name, after) ← readChars cs rest
      match skipBlanks after with
      | ':' :: rest =>
        let (value, after) ← readValueTo room depth (skipBlanks rest)
        let entry := (Value.text (String.ofList name), value)
        match skipBlanks after with
        | '\x7d' :: rest => .ok ([entry], rest)
        | ',' :: rest =>
          let (entries, after) ← readEntriesTo room depth (skipBlanks rest)
          .ok (entry :: entries, after)
        | rest => .error (.malformed "Expecting ',' delimiter" rest)
      | rest => .error (.malformed "Expecting ':' delimiter" rest)
    | _ => .error (.malformed "Expecting property name enclosed in double quotes" cs)

end

/-- Reads a document of characters. -/
def readDocument (room : Room) (cs : List Char) : Except ReadFault Datum :=
  match cs with
  | '\ufeff' :: _ => .error (.malformed "Unexpected UTF-8 BOM (decode using utf-8-sig)" cs)
  | _ => do
    let (value, after) ← readValueTo room (2 * cs.length + 2) (skipBlanks cs)
    match skipBlanks after with
    | [] => .ok value
    | rest => .error (.malformed "Extra data" rest)

/-- Reads a document where the room for nested parts is limited. -/
def readWithin (room : Room) (document : String) : Except ReadFault Datum :=
  readDocument room document.toList

/-- Reads a document. -/
def read (document : String) : Except ReadFault Datum := readWithin none document

end Infra.Json
