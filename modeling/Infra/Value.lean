import Infra.Decimal.Binary64

/-!
# Values

What a declaration can hold: scalars, and references into a store for everything that has an
identity of its own, so that two values are the same object exactly when they are equal.

* `Value` : a scalar or the index of an object of the store;
* `Value.number?`, `Value.sameScalar` : truth values, integers and floating numbers that are
  numerically equal are the same mapping key;
* `Datum` : a tree of values, for documents and reports that share nothing.
-/

namespace Infra

open Decimal (Binary64)

/-- A scalar, or the index of an object in the table of its kind. -/
inductive Value
  | null
  | bool (b : Bool)
  | int (n : Int)
  | float (x : Binary64)
  | text (s : String)
  | bytes (bs : List UInt8)
  | path (s : String)
  | moment (s : String)
  | module
  | function
  | sequence (id : Nat)
  | mapping (id : Nat)
  | entity (id : Nat)
  | reference (id : Nat)
  | output (id : Nat)
  | intrinsic (id : Nat)
  | constructor (id : Nat)
  | definition (id : Nat)
  | composite (id : Nat)
  deriving DecidableEq, Repr

instance : Inhabited Value := ⟨.null⟩

namespace Value

/-- A number as a mapping key: an integer, or a floating number that equals none. -/
inductive Number
  | whole (n : Int)
  | fractional (x : Binary64)
  deriving DecidableEq, Repr

/-- The number that a value counts as. -/
def number? : Value → Option Number
  | bool b => some (.whole (if b then 1 else 0))
  | int n => some (.whole n)
  | float x => some (match x.toInt? with
    | some n => .whole n
    | none => .fractional x)
  | _ => none

/-- Whether two values are equal as scalars, or are the same object. -/
def sameScalar (a b : Value) : Bool :=
  match a.number?, b.number? with
  | some m, some n => m == n
  | none, none => a == b
  | _, _ => false

/-- Whether the value is a scalar that counts as unset in a test of truth. -/
def isFalsyScalar : Value → Bool
  | null => true
  | bool b => !b
  | int n => n == 0
  | float x => x.isZero
  | text s => s.isEmpty
  | bytes bs => bs.isEmpty
  | _ => false

/-- The text of a value that is a text. -/
def text? : Value → Option String
  | text s => some s
  | _ => none

end Value

/-- A tree of values. The keys of a table are in the order of their first insertion. -/
inductive Datum
  | leaf (v : Value)
  | list (items : List Datum)
  | table (entries : List (Value × Datum))
  deriving BEq, Repr

instance : Inhabited Datum := ⟨.leaf .null⟩

namespace Datum

def null : Datum := leaf .null

/-- Whether the datum is null. -/
def isNull : Datum → Bool
  | leaf .null => true
  | _ => false

def text (s : String) : Datum := leaf (.text s)
def bool (b : Bool) : Datum := leaf (.bool b)
def int (n : Int) : Datum := leaf (.int n)

/-- A table whose keys are texts. -/
def record (entries : List (String × Datum)) : Datum :=
  table (entries.map fun entry => (.text entry.1, entry.2))

/-- A list of texts. -/
def texts (names : List String) : Datum := list (names.map text)

/-- The entry of a table under a text, if the datum is a table that has one. -/
def get? (d : Datum) (key : String) : Option Datum :=
  match d with
  | table entries => entries.lookup (.text key)
  | _ => none

/-- The text of a datum that is one. -/
def text? : Datum → Option String
  | leaf (.text s) => some s
  | _ => none

/-- The entry of a table under a text; null where there is none. -/
def field (d : Datum) (key : String) : Datum := (d.get? key).getD null

/-- The items of a list; a datum that is no list has none. -/
def items : Datum → List Datum
  | list items => items
  | _ => []

/-- The two items of a pair. -/
def pair (d : Datum) : Datum × Datum :=
  match d.items with
  | a :: b :: _ => (a, b)
  | _ => (null, null)

/-- The text that a datum is; empty where it is none. -/
def textD (d : Datum) : String := d.text?.getD ""

/-- The entries that a list of pairs of a name and a datum spells. -/
def pairs (d : Datum) : List (String × Datum) :=
  d.items.map fun entry => (entry.pair.1.textD, entry.pair.2)

/-- The texts that a list holds. -/
def textList (d : Datum) : List String := d.items.map textD

/-- The truth value that a datum is, or else the standard one. -/
def flag (d : Datum) (standard : Bool) : Bool :=
  match d with
  | leaf (.bool b) => b
  | _ => standard

mutual

/-- How deep lists and tables are nested. -/
def depth : Datum → Nat
  | leaf _ => 0
  | list items => depthOfItems items + 1
  | table entries => depthOfEntries entries + 1

/-- How deep lists and tables are nested in items. -/
def depthOfItems : List Datum → Nat
  | [] => 0
  | item :: rest => max item.depth (depthOfItems rest)

/-- How deep lists and tables are nested in the values of entries. -/
def depthOfEntries : List (Value × Datum) → Nat
  | [] => 0
  | (_, value) :: rest => max value.depth (depthOfEntries rest)

end

/-- Whether the datum is a list or a table without entries, or a scalar that counts as unset. -/
def isFalsy : Datum → Bool
  | leaf v => v.isFalsyScalar
  | list items => items.isEmpty
  | table entries => entries.isEmpty

end Datum

/-! ## Entries in insertion order -/

namespace Entries

variable {α : Type}

/-- Sets an entry. A key that is there already keeps its place. -/
def insert (entries : List (Value × α)) (key : Value) (value : α) : List (Value × α) :=
  if entries.any fun entry => entry.1.sameScalar key then
    entries.map fun entry => if entry.1.sameScalar key then (entry.1, value) else entry
  else entries ++ [(key, value)]

/-- The entries that a list of settings leaves, made one after the other. -/
def ofList (settings : List (Value × α)) : List (Value × α) :=
  settings.foldl (fun entries setting => insert entries setting.1 setting.2) []

end Entries

/-! ## Named entries in insertion order -/

namespace Named

variable {α : Type}

/-- Sets an entry. A name that is there already keeps its place. -/
def insert (entries : List (String × α)) (name : String) (value : α) : List (String × α) :=
  if entries.any fun entry => entry.1 == name then
    entries.map fun entry => if entry.1 == name then (name, value) else entry
  else entries ++ [(name, value)]

/-- The entries that a list of settings leaves, made one after the other. -/
def ofList (settings : List (String × α)) : List (String × α) :=
  settings.foldl (fun entries setting => insert entries setting.1 setting.2) []

/-- Removes an entry. -/
def erase (entries : List (String × α)) (name : String) : List (String × α) :=
  entries.filter fun entry => entry.1 != name

end Named
end Infra
