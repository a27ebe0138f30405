import Infra.Value

/-!
# Checked documents

A document is checked against the form that its reader expects. All findings are reported, each
with the place it is about, the value there and a message.

* `Finding` : one finding; `Checked` : a result, or the findings that stand against it;
* `Checked.and`, `Checked.within` : two parts of a document, and a part as seen from the whole;
* `Checked.entry` : an entry of a table;
* `Checked.text`, `Checked.texts`, `Checked.textTable` : texts, lists and tables of texts.
-/

namespace Infra

/-- What is wrong with a value at a place of a document. -/
structure Finding where
  place : List String
  value : Datum
  message : String
  deriving BEq, Repr

/-- A result, or the findings that stand against it. -/
abbrev Checked (α : Type) := Except (List Finding) α

namespace Checked

variable {α β : Type}

/-- A single finding about the value itself. -/
def refuse (value : Datum) (message : String) : Checked α := .error [⟨[], value, message⟩]

/-- Both results, or the findings of both. -/
def and (a : Checked α) (b : Checked β) : Checked (α × β) :=
  match a, b with
  | .ok a, .ok b => .ok (a, b)
  | .ok _, .error found => .error found
  | .error found, .ok _ => .error found
  | .error first, .error second => .error (first ++ second)

/-- A part of a document as seen from the whole. -/
def within (name : String) (part : Checked α) : Checked α :=
  part.mapError fun found => found.map fun f => { f with place := name :: f.place }

/-- The results of all parts, or the findings of all. -/
def all : List (Checked α) → Checked (List α)
  | [] => .ok []
  | part :: rest => (and part (all rest)).map fun (a, others) => a :: others

/-- A text. -/
def text (d : Datum) : Checked String :=
  match d with
  | .leaf (.text s) => .ok s
  | _ => refuse d "Input should be a valid string"

/-- A list of texts. -/
def texts (d : Datum) : Checked (List String) :=
  match d with
  | .list items => all (items.zipIdx.map fun (item, n) => within (toString n) (text item))
  | _ => refuse d "Input should be a valid list"

/-- A table of texts. -/
def textTable (d : Datum) : Checked (List (String × String)) :=
  match d with
  | .table entries => all (entries.map fun entry =>
      let name := entry.1.text?.getD ""
      within name ((text entry.2).map fun s => (name, s)))
  | _ => refuse d "Input should be a valid dictionary"

/-- An entry of a table, which has a standard where it is left out. -/
def entry (entries : List (Value × Datum)) (name : String) (standard : α)
    (check : Datum → Checked α) : Checked α :=
  match entries.lookup (.text name) with
  | some d => within name (check d)
  | none => .ok standard

end Checked
end Infra
