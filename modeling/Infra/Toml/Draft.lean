import Infra.Toml.Text
import Infra.Value

/-!
# Tables of a TOML document

A document is read statement by statement into a draft: its tables so far, with marks on the
places that later statements may not change. A place is marked closed when it was written as a
whole, as an inline table or list, and declared when its table may not be opened again.

* `Toml.Draft` : the tables and the marks;
* `Toml.nestAt?` : changes the table at a place, through the last items of lists of tables;
* `Toml.Draft.openTable?`, `Toml.Draft.appendTable?`, `Toml.Draft.assign?` : the three statements.
-/

namespace Infra.Toml

/-- The entries of a table. -/
abbrev Table := List (Value × Datum)

def Table.get? (t : Table) (name : String) : Option Datum := t.lookup (.text name)

def Table.put (t : Table) (name : String) (d : Datum) : Table := Entries.insert t (.text name) d

/-- Changes the table at a place. Tables on the way are made; where `throughLists` is set, a list
of tables leads to its last one. -/
def nestAt? (throughLists : Bool) (change : Table → Option Table) : Key → Table → Option Table
  | [], t => change t
  | name :: rest, t => do
    match (t.get? name).getD (.table []) with
    | .table inner => some (t.put name (.table (← nestAt? throughLists change rest inner)))
    | .list items =>
      match throughLists, items.getLast? with
      | true, some (.table inner) =>
        let changed ← nestAt? throughLists change rest inner
        some (t.put name (.list (items.dropLast ++ [.table changed])))
      | _, _ => none
    | .leaf _ => none

/-- Adds an entry that is not there yet. -/
def addNew? (name : String) (d : Datum) (t : Table) : Option Table :=
  match t.get? name with
  | some _ => none
  | none => some (t.put name d)

/-- Whether a value is a table or a list, which nothing may be added to later. -/
def isWhole : Datum → Bool
  | .leaf _ => false
  | _ => true

/-- A document so far. -/
structure Draft where
  tables : Table
  /-- Places that were written as a whole. -/
  closed : List Key
  /-- Places whose table may not be opened again. -/
  declared : List Key
  /-- Places that are declared from the next heading on. -/
  pending : List Key
  /-- The place of the table that entries are added to. -/
  heading : Key

namespace Draft

def empty : Draft := ⟨[], [], [], [], []⟩

/-- Whether a place lies within one that was written as a whole. -/
def isClosed (d : Draft) (key : Key) : Bool := d.closed.any fun whole => whole.isPrefixOf key

def isDeclared (d : Draft) (key : Key) : Bool := d.declared.contains key

/-- Begins a heading: what was pending is declared. -/
def beginHeading (d : Draft) : Draft :=
  { d with declared := d.declared ++ d.pending, pending := [] }

/-- Opens the table of a heading, which may not have been declared before. -/
def openTable? (d : Draft) (key : Key) : Option Draft :=
  if d.isDeclared key || d.isClosed key then none
  else do
    let tables ← nestAt? true some key d.tables
    some { d with tables := tables, declared := key :: d.declared, heading := key }

/-- Adds a table to a list of tables. -/
def appendTo? (name : String) (t : Table) : Option Table :=
  match t.get? name with
  | none => some (t.put name (.list [.table []]))
  | some (.list items) => some (t.put name (.list (items ++ [.table []])))
  | some _ => none

/-- Adds a table to the list of tables of a heading; what was marked below it is free again. -/
def appendTable? (d : Draft) (key : Key) : Option Draft :=
  if d.isClosed key then none
  else do
    let keep (marked : Key) : Bool := !key.isPrefixOf marked
    let name ← key.getLast?
    let tables ← nestAt? true (appendTo? name) key.dropLast d.tables
    some { d with
      tables := tables
      closed := d.closed.filter keep
      declared := key :: d.declared.filter keep
      heading := key }

/-- The places on the way to a key below the heading. -/
def placesTo (d : Draft) (key : Key) : List Key :=
  (List.range (key.length - 1)).map fun n => d.heading ++ key.take (n + 1)

/-- Adds an entry to the table of the heading. -/
def assign? (d : Draft) (key : Key) (value : Datum) : Option Draft := do
  let name ← key.getLast?
  let parent := d.heading ++ key.dropLast
  let places := d.placesTo key
  if places.any d.isDeclared || d.isClosed parent then none
  let tables ← nestAt? true (addNew? name value) parent d.tables
  some { d with
    tables := tables
    closed := if isWhole value then (d.heading ++ key) :: d.closed else d.closed
    pending := places ++ d.pending }

/-- Adds an entry to an inline table, which knows no lists of tables. -/
def assignInline? (d : Draft) (key : Key) (value : Datum) : Option Draft := do
  let name ← key.getLast?
  if d.isClosed key then none
  let tables ← nestAt? false (addNew? name value) key.dropLast d.tables
  some { d with
    tables := tables
    closed := if isWhole value then key :: d.closed else d.closed }

end Draft
end Infra.Toml
