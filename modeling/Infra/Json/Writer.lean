import Infra.Decimal.Shortest
import Infra.Fault
import Infra.Store.Key
import Infra.Text.Order

/-!
# Writing JSON

Documents are written in ASCII: what lies beyond is escaped by its UTF-16 units. A document is
indented, an event stands on one line with sorted keys.

* `Json.stringChars` : a text between quotes;
* `Json.scalarText`, `Json.keyText` : the written forms of scalars, and the texts of keys;
* `Json.Layout` : the separators of a layout; `Json.writeAt` : the written form of a tree;
* `Json.document` : a tree as an indented document.

A number, truth value or null is a key under its own text. Other values that are no texts have no
written form, neither as keys nor as items.
-/

namespace Infra.Json

/-! ## Texts -/

/-- A UTF-16 unit as an escape. -/
def unitEscape (unit : Nat) : List Char := '\\' :: 'u' :: Text.hexDigits unit 4

/-- One character between quotes. -/
def stringChar (c : Char) : List Char :=
  if c == '"' then ['\\', '"']
  else if c == '\\' then ['\\', '\\']
  else if c == '\n' then ['\\', 'n']
  else if c == '\r' then ['\\', 'r']
  else if c == '\t' then ['\\', 't']
  else if c == '\x08' then ['\\', 'b']
  else if c == '\x0c' then ['\\', 'f']
  else if 0x20 ≤ c.toNat && c.toNat ≤ 0x7e then [c]
  else if c.toNat < 0x10000 then unitEscape c.toNat
  else
    let offset := c.toNat - 0x10000
    unitEscape (0xd800 + offset / 0x400) ++ unitEscape (0xdc00 + offset % 0x400)

/-- A text between quotes. -/
def stringChars (cs : List Char) : List Char := '"' :: cs.flatMap stringChar ++ ['"']

/-- A text between quotes, as a text. -/
def quote (s : String) : String := String.ofList (stringChars s.toList)

/-! ## Scalars -/

/-- The written form of a floating number. -/
def floatText (x : Decimal.Binary64) : String :=
  match x.parts with
  | .notANumber => "NaN"
  | .infinite negative => if negative then "-Infinity" else "Infinity"
  | .finite .. => x.text

/-- The longest integer that is written, in digits. -/
def digitLimit : Nat := 4300

/-- The written form of an integer. -/
def intText (n : Int) : Except Fault String :=
  if n.natAbs < Nat.pow 10 digitLimit then .ok (toString n)
  else .error (.badValue ("Exceeds the limit (4300 digits) for integer string conversion; "
    ++ "use sys.set_int_max_str_digits() to increase the limit"))

/-- The fault of a value without a written form. -/
def notWritable (v : Value) : Fault :=
  .wrongType ("Object of type " ++ v.typeName ++ " is not JSON serializable")

/-- The written form of a scalar. -/
def scalarText : Value → Except Fault String
  | .null => .ok "null"
  | .bool b => .ok (if b then "true" else "false")
  | .int n => intText n
  | .float x => .ok (floatText x)
  | .text s => .ok (quote s)
  | v => .error (notWritable v)

/-- The text of a key. -/
def keyText : Value → Except Fault String
  | .null => .ok "null"
  | .bool b => .ok (if b then "true" else "false")
  | .int n => intText n
  | .float x => .ok (floatText x)
  | .text s => .ok s
  | v => .error (.wrongType
      ("keys must be str, int, float, bool or None, not " ++ v.typeName))

/-! ## Trees -/

/-- The separators of a layout: what follows an opening bracket at a depth, what parts two items
there, and what precedes the closing bracket. -/
structure Layout where
  opening : Nat → String
  between : Nat → String
  closing : Nat → String

/-- A line break and an indentation of two blanks a level. -/
def lineBreak (depth : Nat) : String := "\n" ++ String.ofList (List.replicate (2 * depth) ' ')

/-- Each item on a line of its own. -/
def Layout.indented : Layout where
  opening depth := lineBreak (depth + 1)
  between depth := "," ++ lineBreak (depth + 1)
  closing depth := lineBreak depth

/-- Everything on one line. -/
def Layout.line : Layout where
  opening _ := ""
  between _ := ", "
  closing _ := ""

/-- Items between brackets; without items the brackets stand together. -/
def Layout.enclose (l : Layout) (opening closing : String) (depth : Nat) (items : List String) :
    String :=
  if items.isEmpty then opening ++ closing
  else opening ++ l.opening depth ++ String.intercalate (l.between depth) items
    ++ l.closing depth ++ closing

mutual

/-- The written form of a tree at a depth. -/
def writeAt (l : Layout) (depth : Nat) : Datum → Except Fault String
  | .leaf v => scalarText v
  | .list items => l.enclose "[" "]" depth <$> writeItems l (depth + 1) items
  | .table entries => l.enclose "\x7b" "\x7d" depth <$> writeEntries l (depth + 1) entries

/-- The written forms of items. -/
def writeItems (l : Layout) (depth : Nat) : List Datum → Except Fault (List String)
  | [] => .ok []
  | item :: rest => do
    let text ← writeAt l depth item
    .ok (text :: (← writeItems l depth rest))

/-- The written forms of entries. -/
def writeEntries (l : Layout) (depth : Nat) : List (Value × Datum) → Except Fault (List String)
  | [] => .ok []
  | (key, value) :: rest => do
    let name ← keyText key
    let text ← writeAt l depth value
    .ok ((quote name ++ ": " ++ text) :: (← writeEntries l depth rest))

end

/-- The indented document of a tree. -/
def document (d : Datum) : Except Fault String := writeAt .indented 0 d

/-- A tree on one line. -/
def line (d : Datum) : Except Fault String := writeAt .line 0 d

end Infra.Json
