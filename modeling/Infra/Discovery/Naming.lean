import Infra.Log.Event
import Infra.Namespace
import Infra.Store.Display
import Infra.Store.Reach

/-!
# Names and references

After a namespace is known, each of its entities records its own name, and each reference within
reach of an entity, its own accessors first, is given the name under which the arena knows the
entity it leads to. A reference to an entity that the arena does not know is dangling.

* `Store.assignNames` : every entity of a namespace records its name;
* `Store.resolveValue`, `Store.resolveFrom` : resolves one value, and all that places lead to;
* `Store.resolveEntity` : resolves what is within reach of one entity;
* `Store.resolveReferences`, `Store.resolve` : the references of a namespace, and both passes.

A path to a reference names the entity, then `.key` for each entry and `[index]` for each item. A
key that is itself a reference reads differently once it has its name, so each step is written when
the walk takes it.
-/

namespace Infra

/-- The path text of a step. -/
def Store.stepText (s : Store) : Step → String
  | .key v => "." ++ s.shown v
  | .index n => "[" ++ toString n ++ "]"

/-- The text of a path that goes on from another with the given steps. -/
def Store.pathText (s : Store) (base : String) (steps : List Step) : String :=
  base ++ String.join (steps.map s.stepText)

namespace Store

/-- Gives an entity of the namespace its name, if the value is an entity. -/
def assignName (s : Store) (entry : String × Value) : Store :=
  match entry.2 with
  | .entity id => s.nameEntity id entry.1
  | _ => s

/-- Gives each entity of a namespace its name there. -/
def assignNames (s : Store) (n : Namespace) : Store := n.foldl assignName s

/-- Resolves a value that stands at a path: a reference is given the name that the arena has for its
entity, and any other value stays as it is. -/
def resolveValue (arena : Arena) (s : Store) (path : String) : Value → Except Fault Store
  | .reference ref =>
    match arena.nameOf? (s.reference ref).parent with
    | some name => .ok (s.nameReference ref name)
    | none => .error (.failed (.dangling path none))
  | _ => .ok s

theorem unentered_of_resolveValue {arena : Arena} {s s' : Store} {path : String} {v : Value}
    (h : s.resolveValue arena path v = .ok s') (entered : List Value) :
    s'.unentered entered = s.unentered entered := by
  unfold resolveValue at h
  split at h
  · split at h
    · cases h
      rfl
    · cases h
  · cases h
    rfl

/-- Resolves what is reached from some places, each with the path that it goes on from, up to the
first fault. -/
def resolveFrom (arena : Arena) (s : Store) (entered : List Value) :
    List (String × Place) → Store × Except Fault Unit
  | [] => (s, .ok ())
  | (base, p) :: rest =>
    let path := s.pathText base p.steps
    if _leaf : s.contents p.value = [] then
      match _resolved : resolveValue arena s path p.value with
      | .ok s' => resolveFrom arena s' entered rest
      | .error fault => (s, .error fault)
    else if _again : entered.contains p.value then resolveFrom arena s entered rest
    else
      resolveFrom arena s (p.value :: entered) ((s.contents p.value).map (Prod.mk path) ++ rest)
termination_by places => (s.unentered entered, places.length)
decreasing_by
  · rw [unentered_of_resolveValue _resolved]
    exact Prod.Lex.right _ (by simp)
  · exact Prod.Lex.right _ (by simp)
  · exact Prod.Lex.left _ _ (s.unentered_lt _leaf (by simpa using _again))

/-- The accessors of an entity as steps. -/
def accessorSteps (s : Store) (id : Nat) : List Place :=
  (s.entity id).accessors.map fun own => ⟨[.key (.text own.1)], .reference own.2⟩

/-- Resolves the references of one entity. -/
def resolveEntity (arena : Arena) (s : Store) (name : String) (id : Nat) :
    Store × Except Fault Unit :=
  resolveFrom arena s [.entity id]
    ((s.accessorSteps id ++ entrySteps (s.props id)).map (Prod.mk name))

/-- Resolves the references of entities one after the other, up to the first fault. -/
def resolveEntities (arena : Arena) : Store → List (String × Nat) → Store × Except Fault Unit
  | s, [] => (s, .ok ())
  | s, (name, id) :: rest =>
    match resolveEntity arena s name id with
    | (s, .ok ()) => resolveEntities arena s rest
    | refused => refused

/-- Resolves every reference within reach of the entities of a namespace, by the arena that is
given or else by the one of the namespace. -/
def resolveReferences (s : Store) (n : Namespace) (given : Option Arena) :
    Logged (Store × Except Fault Arena) :=
  let arena := Arena.orOfNamespace given n
  match resolveEntities arena s n.entities with
  | (s, .ok ()) =>
    ⟨[⟨.debug, "tessera.discovery.resolve", "attr_refs_resolved", [("entities", .int n.length)]⟩],
      (s, .ok arena)⟩
  | (s, .error fault) => ⟨[], (s, .error fault)⟩

/-- Names the entities of a namespace and resolves the references within their reach. -/
def resolve (s : Store) (n : Namespace) : Logged (Store × Except Fault Arena) :=
  (s.assignNames n).resolveReferences n none

end Store
end Infra
