import Infra.Store.Basic

/-!
# Namespaces and arenas

A namespace gives names to the entities and outputs of a project. An arena is the index that finds
an entity of a namespace, and its name, by the handle that references hold.

* `Namespace`, `Namespace.entities` : named values in order, and those that are entities;
* `Arena` : named entities, none of them twice; `Arena.add` : the first name of an entity stays;
* `Arena.find?`, `Arena.nameOf?` : look-up by handle.
-/

namespace Infra

/-- Named values, in order. -/
abbrev Namespace := List (String × Value)

/-- The entities of a namespace with their names. -/
def Namespace.entities (n : Namespace) : List (String × Nat) :=
  n.filterMap fun entry =>
    match entry.2 with
    | .entity id => some (entry.1, id)
    | _ => none

/-- Named entities, found by handle. -/
structure Arena where
  entries : List (String × Nat)
  deriving DecidableEq, Repr

namespace Arena

def empty : Arena := ⟨[]⟩

/-- The entry of the entity with a handle. -/
def entry? (a : Arena) (handle : Int) : Option (String × Nat) :=
  a.entries.find? fun entry => Store.handle entry.2 == handle

/-- The entity with a handle. -/
def find? (a : Arena) (handle : Int) : Option Nat := Option.map (·.2) <| a.entry? handle

/-- The name of the entity with a handle. -/
def nameOf? (a : Arena) (handle : Int) : Option String := Option.map (·.1) <| a.entry? handle

/-- Adds an entity under a name, unless it is there already. -/
def add (a : Arena) (name : String) (id : Nat) : Arena :=
  match a.entry? (Store.handle id) with
  | some _ => a
  | none => ⟨a.entries ++ [(name, id)]⟩

/-- The arena of the entities of a namespace. -/
def ofNamespace (n : Namespace) : Arena :=
  n.entities.foldl (fun a entry => a.add entry.1 entry.2) .empty

/-- The arena that is given, or the one of the namespace where none is given. An arena without
entities counts as none. -/
def orOfNamespace (given : Option Arena) (n : Namespace) : Arena :=
  match given with
  | some a => if a.entries.isEmpty then ofNamespace n else a
  | none => ofNamespace n

end Arena
end Infra
