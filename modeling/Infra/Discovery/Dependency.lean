import Infra.Graph.Basic
import Infra.Log.Event
import Infra.Namespace
import Infra.Store.Reach

/-!
# Dependencies of entities

An entity depends on the resources that its properties lead to: those that stand there as values,
itself included, and the parents of the references there, itself excepted.

* `Store.dependencies` : the names that one entity depends on;
* `Store.dependencyGraph` : the graph of a namespace.
-/

namespace Infra
namespace Store

variable (s : Store)

/-- The name of the resource with a handle, if the arena knows it. -/
def resourceName? (arena : Arena) (handle : Int) : Option String :=
  match arena.entry? handle with
  | some (name, id) =>
    match (s.entity id).kind with
    | .resource => some name
    | .property => none
  | none => none

/-- The handle that a value within reach of an entity depends on. -/
def dependencyOf? (root : Nat) : Value → Option Int
  | .reference ref =>
    let parent := (s.reference ref).parent
    if parent = handle root then none else some parent
  | .entity id =>
    match (s.entity id).kind with
    | .resource => some (handle id)
    | .property => none
  | _ => none

/-- The names of the resources that an entity depends on, each once. -/
def dependencies (arena : Arena) (id : Nat) : List String :=
  Text.dedupe <| (s.reach id).filterMap fun place =>
    (s.dependencyOf? id place.value).bind (s.resourceName? arena)

/-- The dependencies of each entity of a namespace, under its name. -/
def dependencyGraph (n : Namespace) (given : Option Arena) : Logged Graph :=
  let arena := Arena.orOfNamespace given n
  let graph := n.entities.map fun entry => (entry.1, s.dependencies arena entry.2)
  ⟨[⟨.debug, "tessera.discovery.graph", "dependency_graph_built",
      [("nodes", .int graph.length),
        ("edges", .int (graph.foldr (fun entry n => entry.2.length + n) 0 : Nat))]⟩], graph⟩

end Store
end Infra
