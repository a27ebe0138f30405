import Infra.Text.Blank
import Infra.Text.Lines
import Infra.Value

/-!
# Environment files

An environment file sets one variable a line, as `NAME=value` with an optional `export` before it.
A value stands between quotes with escapes, or goes to the end of the line or to a blank and a
number sign. A line of another form is passed over. In a value, a name between braces after a
dollar sign stands for the value of that variable.

* `EnvironmentFile.readBinding` : one binding;
* `EnvironmentFile.substitute` : a value with the variables in it replaced;
* `EnvironmentFile.read` : the variables that a file sets.
-/

namespace Infra.EnvironmentFile

open Text (isBlank isInnerBlank trimEnd)

/-- Variables by name. -/
abbrev Variables := List (String × String)

/-- A name, with the value if one is assigned. -/
structure Binding where
  name : List Char
  value : Option (List Char)

def isLineEnd (c : Char) : Bool := c == '\n' || c == '\r'

/-! ## Values -/

/-- The characters up to a closing quote, and those after it. A quote after a backslash closes the
value only if no later one does. -/
def readQuoted? (quote : Char) : List Char → Option (List Char × List Char)
  | [] => none
  | '\\' :: next :: after =>
    if next = quote then
      match readQuoted? quote after with
      | some (value, rest) => some ('\\' :: next :: value, rest)
      | none => some (['\\'], after)
    else (readQuoted? quote (next :: after)).map fun (value, rest) => ('\\' :: value, rest)
  | c :: rest =>
    if c = quote then some ([], rest)
    else (readQuoted? quote rest).map fun (value, rest) => (c :: value, rest)

/-- What the character after a backslash stands for between quotes of some kind. -/
def escape? (quote c : Char) : Option Char :=
  if c = '\\' then some '\\'
  else if c = '\x27' then some '\x27'
  else if quote = '"' then
    match c with
    | '"' => some '"'
    | 'a' => some '\x07'
    | 'b' => some '\x08'
    | 'f' => some '\x0c'
    | 'n' => some '\n'
    | 'r' => some '\r'
    | 't' => some '\t'
    | 'v' => some '\x0b'
    | _ => none
  else none

/-- A quoted value with its escapes replaced. -/
def unescape (quote : Char) : List Char → List Char
  | '\\' :: c :: rest =>
    match escape? quote c with
    | some e => e :: unescape quote rest
    | none => '\\' :: unescape quote (c :: rest)
  | c :: rest => c :: unescape quote rest
  | [] => []

/-- An unquoted value up to the first number sign that follows a blank. -/
def withoutComment : List Char → List Char
  | [] => []
  | c :: rest =>
    if isBlank c && (match rest.dropWhile isBlank with
      | '#' :: _ => true
      | _ => false) then []
    else c :: withoutComment rest

/-- Reads a value. A refusal gives the characters from where it was met. -/
def readValue (cs : List Char) : Except (List Char) (List Char × List Char) :=
  match cs with
  | c :: rest =>
    if c = '\x27' ∨ c = '"' then
      match readQuoted? c rest with
      | some (value, after) => .ok (unescape c value, after)
      | none => .error cs
    else
      let line := cs.takeWhile (!isLineEnd ·)
      .ok (trimEnd (withoutComment line), cs.dropWhile (!isLineEnd ·))
  | [] => .ok ([], [])

/-! ## Bindings -/

/-- Whether the character may stand in a name without quotes. -/
def isNameChar (c : Char) : Bool := c != '=' && c != '#' && !isBlank c

/-- The characters after the word `export` and blanks, where both stand here. -/
def skipExport (cs : List Char) : List Char :=
  let word := "export".toList
  let after := cs.drop word.length
  if word.isPrefixOf cs && (after.takeWhile isInnerBlank) != [] then after.dropWhile isInnerBlank
  else cs

/-- Reads a name; a comment stands for none. -/
def readName (cs : List Char) : Except (List Char) (Option (List Char) × List Char) :=
  match cs with
  | '#' :: _ => .ok (none, cs)
  | '\x27' :: rest =>
    let name := rest.takeWhile (· != '\x27')
    match rest.dropWhile (· != '\x27') with
    | _ :: after => if name.isEmpty then .error cs else .ok (some name, after)
    | [] => .error cs
  | _ =>
    let name := cs.takeWhile isNameChar
    if name.isEmpty then .error cs else .ok (some name, cs.dropWhile isNameChar)

/-- The characters after a comment, if one stands here after blanks. -/
def skipComment (cs : List Char) : List Char :=
  match cs.dropWhile isInnerBlank with
  | '#' :: rest => rest.dropWhile (!isLineEnd ·)
  | _ => cs

/-- The characters after the blanks to the end of the line, if nothing else stands there. -/
def skipLineEnd (cs : List Char) : Except (List Char) (List Char) :=
  match cs.dropWhile isInnerBlank with
  | [] => .ok []
  | c :: rest => if isLineEnd c then .ok rest else .error cs

/-- Reads the value that may be assigned to a name. -/
def readAssigned (cs : List Char) : Except (List Char) (Option (List Char) × List Char) :=
  match cs.dropWhile isInnerBlank with
  | '=' :: rest => do
    let (value, rest) ← readValue (rest.dropWhile isInnerBlank)
    .ok (some value, rest)
  | rest => .ok (none, rest)

/-- Reads a binding to the end of its line. -/
def readBinding (cs : List Char) : Except (List Char) (Option Binding × List Char) := do
  let (name, rest) ← readName (skipExport cs)
  let (value, rest) ← readAssigned rest
  let rest ← skipLineEnd (skipComment rest)
  .ok (name.map fun name => ⟨name, value⟩, rest)

/-- The bindings of a file of at most as many lines. After a refusal, reading goes on behind the
line in which it was met. -/
def bindingsTo : Nat → List Char → List Binding
  | 0, _ => []
  | lines + 1, cs =>
    match cs.dropWhile isBlank with
    | [] => []
    | line =>
      match readBinding line with
      | .ok (binding, rest) => binding.toList ++ bindingsTo lines rest
      | .error rest => bindingsTo lines ((rest.dropWhile (!isLineEnd ·)).drop 1)

/-- The bindings of a file. -/
def bindings (text : String) : List Binding :=
  let cs := text.toList
  bindingsTo (cs.length + 1) cs

/-! ## Variables in values -/

/-- Reads a variable between braces: its name and what stands for it where it is not set. -/
def readVariable? (cs : List Char) : Option (List Char × List Char × List Char) :=
  let name := cs.takeWhile fun c => c != '\x7d' && c != ':'
  match cs.dropWhile fun c => c != '\x7d' && c != ':' with
  | '\x7d' :: rest => some (name, [], rest)
  | ':' :: '-' :: rest =>
    match rest.dropWhile (· != '\x7d') with
    | _ :: after => some (name, rest.takeWhile (· != '\x7d'), after)
    | [] => none
  | _ => none

/-- A value with its variables replaced, through at most as many characters. -/
def substituteTo (value? : String → Option String) : Nat → List Char → List Char
  | 0, cs => cs
  | _, [] => []
  | length + 1, '$' :: '\x7b' :: rest =>
    match readVariable? rest with
    | some (name, standard, after) =>
      let text := ((value? (String.ofList name)).map (·.toList)).getD standard
      text ++ substituteTo value? length after
    | none => '$' :: substituteTo value? length ('\x7b' :: rest)
  | length + 1, c :: rest => c :: substituteTo value? length rest

/-- A value with its variables replaced. -/
def substitute (value? : String → Option String) (cs : List Char) : List Char :=
  substituteTo value? cs.length cs

/-- Adds a binding to those before it, which a value may name; variables of the process stand where
no binding does. -/
def resolve (process : Variables) (known : List (String × Option String)) (b : Binding) :
    List (String × Option String) :=
  let value? (name : String) : Option String :=
    match known.lookup name with
    | some value => some (value.getD "")
    | none => process.lookup name
  let value := b.value.map fun value => String.ofList (substitute value? value)
  Named.insert known (String.ofList b.name) value

/-- The variables that a file sets. -/
def read (process : Variables) (text : String) : Variables :=
  ((bindings (Text.asRead text)).foldl (resolve process) []).filterMap fun (name, value) =>
    value.map fun value => (name, value)

end Infra.EnvironmentFile
