import Infra.Expr.Document

/-!
# Statements of a unit

A unit is a list of statements that bind names to values, one statement a line. Terms are the
values that statements spell.

* `SourceUnit.Term`, `SourceUnit.Statement` : terms and statements;
* `Term.ofDatum`, `Statement.ofDatum` : the ones that trees spell.
-/

namespace Infra.SourceUnit

/-- A value as a statement spells it. -/
inductive Term
  | scalar (v : Value)
  | list (items : List Term)
  | table (entries : List (Value × Term))
  /-- A name, and the fields that are read from it one after the other. -/
  | name (first : String) (fields : List String)
  /-- A new resource that declares attributes under their own names. -/
  | resource (backend entityType : String) (attributes : List String)
  deriving Repr

instance : Inhabited Term := ⟨.scalar .null⟩

/-- A statement of a unit. -/
inductive Statement
  /-- Binds a name to a value. -/
  | bind (name : String) (term : Term)
  /-- Binds a name to a new resource. -/
  | resource (name backend entityType : String) (accessors : List (String × String))
      (props : List (String × Term))
  /-- Binds a name to a new property entity. -/
  | property (name backend entityType : String) (props : List (String × Term))
  /-- Binds a name to an output of a reference. -/
  | output (name : String) (reference : Term) (outputName : String)
  /-- Binds a name to a composite of the members. -/
  | composite (name label : String) (members : List (String × Term))
  /-- Sets a property of an entity. -/
  | assign (entity : Term) (key : String) (term : Term)
  /-- Binds names of another module, under other names where given. -/
  | take (module : String) (names : List (String × Option String))
  /-- Loads a module and binds the first part of its name. -/
  | load (module : String)
  /-- Lists the names that are exported. -/
  | exports (names : List String)
  /-- Raises an error. -/
  | raises (error : Raised)
  /-- Unbinds a name. -/
  | forget (name : String)
  /-- No statement at all, so that the unit cannot be read. -/
  | malformed
  deriving Repr

instance : Inhabited Statement := ⟨.malformed⟩

/-! ## Trees -/

/-- The term that a text with dots spells. -/
def Term.ofName (text : String) : Term :=
  match text.splitOn "." with
  | [] => .name text []
  | first :: fields => .name first fields

/-- The term that a table of some kind spells, given how its parts are read. -/
def Term.ofTable (read : Datum → Term) (d : Datum) : Term :=
  match (d.field "t").textD with
  | "dict" => .table ((d.field "v").items.filterMap fun entry =>
      match entry.pair.1 with
      | .leaf key => some (key, read entry.pair.2)
      | _ => none)
  | "get" => .ofName (d.field "v").textD
  | "res" => .resource (d.field "b").textD (d.field "y").textD (d.field "attrs").textList
  | _ =>
    match Expr.ofDatum d with
    | .literal v => .scalar v
    | _ => .scalar .null

/-- The term that a tree spells, to some depth. -/
def Term.ofDatumTo : Nat → Datum → Term
  | _, .leaf v => .scalar v
  | 0, _ => .scalar .null
  | depth + 1, .list items => .list (items.map (ofDatumTo depth))
  | depth + 1, d => ofTable (ofDatumTo depth) d

/-- The term that a tree spells. -/
def Term.ofDatum (d : Datum) : Term := ofDatumTo d.depth d

/-- The statement that a list spells: the word for its kind, and its parts. -/
def Statement.ofDatum (d : Datum) : Statement :=
  let text (d : Datum) : String := d.textD
  let terms (d : Datum) : List (String × Term) := d.pairs.map fun p => (p.1, Term.ofDatum p.2)
  let texts (d : Datum) : List (String × String) := d.pairs.map fun p => (p.1, p.2.textD)
  match d.items with
  | [] => .malformed
  | kind :: parts =>
    match kind.textD, parts with
    | "let", [name, term] => .bind (text name) (.ofDatum term)
    | "resource", [name, backend, type, accessors, props] =>
      .resource (text name) (text backend) (text type) (texts accessors) (terms props)
    | "property", [name, backend, type, props] =>
      .property (text name) (text backend) (text type) (terms props)
    | "output", [name, reference, outputName] =>
      .output (text name) (.ofDatum reference) (text outputName)
    | "composite", [name, label, members] => .composite (text name) (text label) (terms members)
    | "setprop", [entity, key, term] => .assign (.ofName (text entity)) (text key) (.ofDatum term)
    | "from", [module, names] =>
      .take (text module) (names.pairs.map fun p => (p.1, p.2.text?))
    | "import", [module] => .load (text module)
    | "all", [names] => .exports names.textList
    | "raise", [label, message] => .raises ⟨text label, message.text?⟩
    | "del", [name] => .forget (text name)
    | _, _ => .malformed

end Infra.SourceUnit
