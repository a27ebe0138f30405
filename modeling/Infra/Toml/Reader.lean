import Infra.Room
import Infra.Toml.Draft
import Infra.Toml.Moment
import Infra.Toml.Number

/-!
# Reading TOML

A document is a sequence of statements, each on a line of its own: an entry, the heading of a table
or of an item in a list of tables, or nothing but a comment.

* `Toml.ReadFault` : why a document is refused;
* `Toml.readValueTo` : a value, to some depth;
* `Toml.readStatement` : one statement;
* `Toml.readWithin` : the table of a document.

Every value and every statement uses up a character, so the number of characters bounds both. Of
the room for nested parts a value takes one call, a list and a table one more each, and each entry
of a table another one.
-/

namespace Infra.Toml

/-- Why a document is refused. -/
inductive ReadFault
  | malformed
  | value (fault : Fault)
  /-- There is no room for a nested part. -/
  | tooDeep
  deriving Repr

/-- What was read, or a refusal. -/
def found {α : Type} : Option α → Except ReadFault α
  | some a => .ok a
  | none => .error .malformed

/-! ## Comments -/

/-- The characters after a comment, if one stands here. -/
def skipComment (cs : List Char) : Except ReadFault (List Char) :=
  match cs with
  | '#' :: rest =>
    if (rest.takeWhile (· != '\n')).any isForbidden then .error .malformed
    else .ok (rest.dropWhile (· != '\n'))
  | _ => .ok cs

/-- The characters after the blanks, line breaks and comments between the items of a list. -/
def skipFiller (cs : List Char) : Except ReadFault (List Char) :=
  match _h : cs.dropWhile isBlankOrBreak with
  | '#' :: rest =>
    if (rest.takeWhile (· != '\n')).any isForbidden then .error .malformed
    else skipFiller (rest.dropWhile (· != '\n'))
  | rest => .ok rest
termination_by cs.length
decreasing_by
  have shorter := (List.dropWhile_suffix isBlankOrBreak (l := cs)).length_le
  have rest_shorter := (List.dropWhile_suffix (· != '\n') (l := rest)).length_le
  simp only [_h, List.length_cons] at shorter
  omega

/-! ## Values -/

/-- Reads a truth value. -/
def readFlag? (cs : List Char) : Option (Bool × List Char) :=
  if "true".toList.isPrefixOf cs then some (true, cs.drop 4)
  else if "false".toList.isPrefixOf cs then some (false, cs.drop 5)
  else none

/-- Reads a scalar. -/
def readScalar (cs : List Char) : Except ReadFault (Datum × List Char) :=
  match readText? cs with
  | some text => do
    let (text, rest) ← found text
    .ok (.text (String.ofList text), rest)
  | none =>
    match readFlag? cs with
    | some (b, rest) => .ok (.bool b, rest)
    | none =>
      match readMoment? cs with
      | some moment => do
        let (text, rest) ← found moment
        .ok (.leaf (.moment text), rest)
      | none =>
        match readNumber? cs with
        | some (.ok number) => .ok number
        | some (.error fault) => .error (.value fault)
        | none => .error .malformed

mutual

/-- Reads a value, to some depth. -/
def readValueTo : Room → Nat → List Char → Except ReadFault (Datum × List Char)
  | _, 0, _ => .error .malformed
  | room, depth + 1, cs => do
    let room ← room.enter 1 .tooDeep
    match cs with
    | '[' :: rest => do
      let room ← room.enter 1 .tooDeep
      match ← skipFiller rest with
      | ']' :: after => .ok (.list [], after)
      | items => do
        let (values, after) ← readItemsTo room depth items
        .ok (.list values, after)
    | '\x7b' :: rest => do
      let room ← room.enter 1 .tooDeep
      match skipBlanks rest with
      | '\x7d' :: after => .ok (.table [], after)
      | entries => do
        let (d, after) ← readEntriesTo room depth .empty entries
        .ok (.table d.tables, after)
    | _ => readScalar cs

/-- Reads the items of a list up to its closing bracket, which a comma may precede. -/
def readItemsTo : Room → Nat → List Char → Except ReadFault (List Datum × List Char)
  | _, 0, _ => .error .malformed
  | room, depth + 1, cs => do
    let (value, after) ← readValueTo room depth cs
    match ← skipFiller after with
    | ']' :: rest => .ok ([value], rest)
    | ',' :: rest =>
      match ← skipFiller rest with
      | ']' :: rest => .ok ([value], rest)
      | rest => do
        let (values, after) ← readItemsTo room depth rest
        .ok (value :: values, after)
    | _ => .error .malformed

/-- Reads the entries of an inline table up to its closing brace. -/
def readEntriesTo : Room → Nat → Draft → List Char → Except ReadFault (Draft × List Char)
  | _, 0, _, _ => .error .malformed
  | room, depth + 1, d, cs => do
    let inner ← room.enter 1 .tooDeep
    let (key, after) ← found (readKey? cs)
    match after with
    | '=' :: rest => do
      let (value, after) ← readValueTo inner depth (skipBlanks rest)
      let d ← found (d.assignInline? key value)
      match skipBlanks after with
      | '\x7d' :: rest => .ok (d, rest)
      | ',' :: rest => readEntriesTo room depth d (skipBlanks rest)
      | _ => .error .malformed
    | _ => .error .malformed

end

/-- Reads a value. -/
def readValue (room : Room) (cs : List Char) : Except ReadFault (Datum × List Char) :=
  readValueTo room (2 * cs.length + 2) cs

/-! ## Statements -/

/-- Reads an entry. -/
def readEntry (room : Room) (d : Draft) (cs : List Char) :
    Except ReadFault (Draft × List Char) := do
  let (key, after) ← found (readKey? cs)
  match after with
  | '=' :: rest => do
    let (value, after) ← readValue room (skipBlanks rest)
    .ok (← found (d.assign? key value), after)
  | _ => .error .malformed

/-- Reads the heading of an item in a list of tables after its opening brackets. -/
def readListHeading (d : Draft) (cs : List Char) : Except ReadFault (Draft × List Char) := do
  let (key, after) ← found (readKey? (skipBlanks cs))
  let d ← found (d.beginHeading.appendTable? key)
  match after with
  | ']' :: ']' :: rest => .ok (d, rest)
  | _ => .error .malformed

/-- Reads the heading of a table after its opening bracket. -/
def readTableHeading (d : Draft) (cs : List Char) : Except ReadFault (Draft × List Char) := do
  let (key, after) ← found (readKey? (skipBlanks cs))
  let d ← found (d.beginHeading.openTable? key)
  match after with
  | ']' :: rest => .ok (d, rest)
  | _ => .error .malformed

/-- Reads a statement, if one stands here before the comment or the end of the line. -/
def readStatement (room : Room) (d : Draft) (cs : List Char) :
    Except ReadFault (Draft × List Char) :=
  match cs with
  | [] => .ok (d, cs)
  | '\n' :: _ | '#' :: _ => .ok (d, cs)
  | '[' :: '[' :: rest => readListHeading d rest
  | '[' :: rest => readTableHeading d rest
  | _ => readEntry room d cs

/-- Reads at most as many lines. -/
def readLines (room : Room) : Nat → Draft → List Char → Except ReadFault Draft
  | 0, _, _ => .error .malformed
  | lines + 1, d, cs => do
    let (d, after) ← readStatement room d (skipBlanks cs)
    match ← skipComment (skipBlanks after) with
    | [] => .ok d
    | '\n' :: rest => readLines room lines d rest
    | _ => .error .malformed

/-- Reads a document where the room for nested parts is limited. -/
def readWithin (room : Room) (document : String) : Except ReadFault Datum := do
  let cs := document.toList
  let d ← readLines room (cs.length + 1) .empty cs
  .ok (.table d.tables)

end Infra.Toml
