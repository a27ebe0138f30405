import Infra.Json.Reader

/-!
# Texts and keys of TOML

A text stands between quotes on one line, or between threefold quotes on several. Single quotes
take every character as it is; double quotes know escapes, and between threefold ones a backslash
at the end of a line leaves out the blanks that follow.

* `Toml.readBasic?`, `Toml.readLiteral?` : texts after their opening quote;
* `Toml.readText?` : a text with its quotes;
* `Toml.readKey?` : a key, whose parts are joined by dots.

Readers give what they read and the characters after it.
-/

namespace Infra.Toml

def isBlank (c : Char) : Bool := c == ' ' || c == '\t'

def isBlankOrBreak (c : Char) : Bool := isBlank c || c == '\n'

def skipBlanks (cs : List Char) : List Char := cs.dropWhile isBlank

/-- Whether a control character may not stand on a line. -/
def isForbidden (c : Char) : Bool := (c.toNat < 0x20 || c.toNat == 0x7f) && c != '\t'

/-- Whether a control character may not stand in a text of several lines. -/
def isForbiddenInBlock (c : Char) : Bool := isForbidden c && c != '\n'

/-! ## Escapes -/

/-- The character of a number that is no half of a UTF-16 pair. -/
def scalar? (n : Nat) : Option Char := if n.isValidChar then some (Char.ofNat n) else none

/-- The character of as many hexadecimal digits. -/
def readHex? (count : Nat) (cs : List Char) : Option Char :=
  if (cs.take count).length = count then (Json.hexNumber? (cs.take count)).bind scalar? else none

/-- What a short escape stands for. -/
def shortEscape? (c : Char) : Option Char :=
  match c with
  | 'b' => some '\x08'
  | 't' => some '\t'
  | 'n' => some '\n'
  | 'f' => some '\x0c'
  | 'r' => some '\r'
  | '"' => some '"'
  | '\\' => some '\\'
  | _ => none

/-- What follows the blanks after a backslash at the end of a line: the text goes on with the next
character that is no blank, and a text that ends there is not closed. -/
def skipLineEnd? (cs : List Char) : Option (List Char) :=
  match skipBlanks cs with
  | '\n' :: rest => some (rest.dropWhile isBlankOrBreak)
  | _ => none

theorem length_skipLineEnd? {cs rest : List Char} (h : skipLineEnd? cs = some rest) :
    rest.length ≤ cs.length := by
  unfold skipLineEnd? skipBlanks at h
  have shorter : (cs.dropWhile isBlank).length ≤ cs.length := (List.dropWhile_suffix _).length_le
  split at h
  · rename_i more heq
    cases h
    have := (List.dropWhile_suffix isBlankOrBreak (l := more)).length_le
    rw [heq] at shorter
    simp only [List.length_cons] at shorter
    omega
  · cases h

/-! ## Texts -/

/-- Reads a text up to its closing double quote, or closing threefold ones. -/
def readBasic? (block : Bool) : List Char → Option (List Char × List Char)
  | [] => none
  | '"' :: rest =>
    if block then
      match rest with
      | '"' :: '"' :: after => some ([], after)
      | others => (readBasic? block others).map fun (cs, after) => ('"' :: cs, after)
    else some ([], rest)
  | '\\' :: rest =>
    match rest with
    | [] => none
    | 'u' :: digits => do
      let c ← readHex? 4 digits
      let (cs, after) ← readBasic? block (digits.drop 4)
      some (c :: cs, after)
    | 'U' :: digits => do
      let c ← readHex? 8 digits
      let (cs, after) ← readBasic? block (digits.drop 8)
      some (c :: cs, after)
    | c :: more =>
      if block && isBlankOrBreak c then
        match _h : skipLineEnd? (c :: more) with
        | some next => readBasic? block next
        | none => none
      else do
        let e ← shortEscape? c
        let (cs, after) ← readBasic? block more
        some (e :: cs, after)
  | c :: rest =>
    if (if block then isForbiddenInBlock c else isForbidden c) then none
    else (readBasic? block rest).map fun (cs, after) => (c :: cs, after)
termination_by cs => cs.length
decreasing_by
  all_goals simp only [List.length_cons, List.length_drop]
  all_goals try omega
  have := length_skipLineEnd? (by assumption)
  simp only [List.length_cons] at this
  omega

/-- Reads a text up to its closing single quote. -/
def readLiteral? (cs : List Char) : Option (List Char × List Char) :=
  let text := cs.takeWhile (· != '\x27')
  match cs.dropWhile (· != '\x27') with
  | _ :: after => if text.any isForbidden then none else some (text, after)
  | [] => none

/-- Reads a text up to its closing threefold single quotes. -/
def readLiteralBlock? : List Char → Option (List Char × List Char)
  | [] => none
  | '\x27' :: '\x27' :: '\x27' :: after => some ([], after)
  | c :: rest =>
    if isForbiddenInBlock c then none
    else (readLiteralBlock? rest).map fun (cs, after) => (c :: cs, after)

/-- A text between threefold quotes may end in up to two quotes of its own. -/
def closeBlock (quote : Char) (text after : List Char) : List Char × List Char :=
  let extra := (after.takeWhile (· == quote)).take 2
  (text ++ extra, after.drop extra.length)

/-- The line break that may follow opening threefold quotes is no part of the text. -/
def openBlock : List Char → List Char
  | '\n' :: rest => rest
  | cs => cs

/-- Reads a text with its quotes, if one stands here. -/
def readText? : List Char → Option (Option (List Char × List Char))
  | '"' :: '"' :: '"' :: rest =>
    some ((readBasic? true (openBlock rest)).map fun (cs, after) => closeBlock '"' cs after)
  | '"' :: rest => some (readBasic? false rest)
  | '\x27' :: '\x27' :: '\x27' :: rest =>
    some ((readLiteralBlock? (openBlock rest)).map fun (cs, after) => closeBlock '\x27' cs after)
  | '\x27' :: rest => some (readLiteral? rest)
  | _ => none

/-! ## Keys -/

/-- The names that lead to a value. -/
abbrev Key := List String

/-- Whether the character may stand in a key without quotes. -/
def isBare (c : Char) : Bool :=
  ('a' ≤ c && c ≤ 'z') || ('A' ≤ c && c ≤ 'Z') || ('0' ≤ c && c ≤ '9') || c == '-' || c == '_'

/-- Reads one part of a key. -/
def readKeyPart? : List Char → Option (List Char × List Char)
  | '"' :: rest => readBasic? false rest
  | '\x27' :: rest => readLiteral? rest
  | cs =>
    if (cs.takeWhile isBare).isEmpty then none
    else some (cs.takeWhile isBare, cs.dropWhile isBare)

/-- Reads a key of at most as many parts, and the blanks after it. -/
def readKeyTo? : Nat → List Char → Option (Key × List Char)
  | 0, _ => none
  | parts + 1, cs => do
    let (part, after) ← readKeyPart? cs
    let name := String.ofList part
    match skipBlanks after with
    | '.' :: rest =>
      let (names, after) ← readKeyTo? parts (skipBlanks rest)
      some (name :: names, after)
    | rest => some ([name], rest)

/-- Reads a key and the blanks after it. -/
def readKey? (cs : List Char) : Option (Key × List Char) := readKeyTo? (cs.length + 1) cs

end Infra.Toml
