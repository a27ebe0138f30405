import Infra.Fault

/-!
# Text with placeholders

A template writes a field as a pair of braces, which may hold the position of the argument; a
brace that is text is doubled. Fields without a position count on from the first argument.

* `Placeholder.parse` : the pieces of a template;
* `Placeholder.fill` : the template with its fields replaced.
-/

namespace Infra.Text.Placeholder

/-- A piece of a template: a character, or a field with what its braces hold. -/
inductive Piece
  | char (c : Char)
  | field (inside : List Char)
  deriving DecidableEq, Repr

/-- The opening and the closing brace. -/
def opening : Char := '\x7b'
def closing : Char := '\x7d'

/-- The pieces of a template. `inside` holds, last first, what a field that is still open has
held so far. -/
def parse : Option (List Char) → List Char → Except Fault (List Piece)
  | none, [] => .ok []
  | some _, [] => .error (.badValue "expected closing brace before end of string")
  | some inside, c :: rest =>
    if c == closing then (.field inside.reverse :: ·) <$> parse none rest
    else if c == opening then
      .error (.badValue "unexpected opening brace in field name")
    else parse (some (c :: inside)) rest
  | none, [c] =>
    if c == opening then .error (.badValue "Single opening brace encountered in format string")
    else if c == closing then .error (.badValue "Single closing brace encountered in format string")
    else .ok [.char c]
  | none, c :: d :: rest =>
    if c == opening && d == opening || c == closing && d == closing then
      (.char c :: ·) <$> parse none rest
    else if c == opening then parse (some []) (d :: rest)
    else if c == closing then
      .error (.badValue "Single closing brace encountered in format string")
    else (.char c :: ·) <$> parse none (d :: rest)

/-- How the fields of a template seen so far name their arguments. -/
inductive Numbering
  | undecided
  | counted (next : Nat)
  | given
  deriving DecidableEq, Repr

/-- The argument at a position. -/
def argument (arguments : List String) (position : Nat) : Except Fault String :=
  match arguments[position]? with
  | some text => .ok text
  | none => .error (.outOfRange
      ("Replacement index " ++ toString position ++ " out of range for positional args tuple"))

/-- The text of a field, and the numbering after it. -/
def fieldText (arguments : List String) (numbering : Numbering) (inside : List Char) :
    Except Fault (String × Numbering) :=
  if inside.isEmpty then
    match numbering with
    | .given => .error (.badValue
        "cannot switch from manual field specification to automatic field numbering")
    | .undecided => (·, .counted 1) <$> argument arguments 0
    | .counted next => (·, .counted (next + 1)) <$> argument arguments next
  else if inside.all Char.isDigit then
    match numbering with
    | .counted _ => .error (.badValue
        "cannot switch from automatic field numbering to manual field specification")
    | _ => (·, .given) <$> argument arguments ((String.ofList inside).toNat?.getD 0)
  else .error (.missingKey (String.ofList inside))

/-- Fills the fields of the pieces one after the other. -/
def fillPieces (arguments : List String) : Numbering → List Piece → Except Fault (List Char)
  | _, [] => .ok []
  | numbering, .char c :: rest => (c :: ·) <$> fillPieces arguments numbering rest
  | numbering, .field inside :: rest => do
    let (text, numbering) ← fieldText arguments numbering inside
    (text.toList ++ ·) <$> fillPieces arguments numbering rest

/-- The template with its fields replaced by the arguments. -/
def fill (template : String) (arguments : List String) : Except Fault String := do
  let pieces ← parse none template.toList
  String.ofList <$> fillPieces arguments .undecided pieces

end Infra.Text.Placeholder
