import Infra.Discovery.Dependency
import Infra.Proofs.Discovery.Arena
import Infra.Proofs.Store.Accessors

/-!
# The dependency graph is exact

* `Store.mem_dependencies` : the dependencies of an entity come from the values that it reaches;
* `Store.DependsOn` : what it means for an entity to depend on a named resource;
* `Store.dependencyGraph_spec` : the graph of a namespace has its entities as nodes, in order, and
  an edge for each dependency, no other.
-/

namespace Infra

namespace Store

variable {s : Store}

/-- Only references and resources make dependencies, and a walk enters neither. -/
theorem contents_of_dependencyOf? {root : Nat} {v : Value} {h : Int}
    (dep : s.dependencyOf? root v = some h) : s.contents v = [] := by
  match v with
  | .reference _ => rfl
  | .entity e =>
    cases kind : (s.entity e).kind with
    | resource => exact contents_resource kind
    | property => simp [dependencyOf?, kind] at dep
  | .null | .bool _ | .int _ | .float _ | .text _ | .bytes _ | .path _ | .moment _ | .module
  | .function | .sequence _ | .mapping _ | .output _ | .intrinsic _ | .constructor _
  | .definition _ | .composite _ => cases dep

/-- An entity depends on the resources that the arena knows for the values it reaches. -/
theorem mem_dependencies {arena : Arena} {id : Nat} {t : String} :
    t ∈ s.dependencies arena id ↔
      ∃ v, s.Reaches id v ∧
        ∃ h, s.dependencyOf? id v = some h ∧ s.resourceName? arena h = some t := by
  unfold dependencies
  rw [Text.mem_dedupe, List.mem_filterMap]
  constructor
  · rintro ⟨p, mem, eq⟩
    obtain ⟨h, dep, known⟩ := Option.bind_eq_some_iff.mp eq
    exact ⟨p.value, reaches_of_mem_reach mem, h, dep, known⟩
  · rintro ⟨v, reaches, h, dep, known⟩
    obtain ⟨p, mem, rfl⟩ := (reaches_iff_mem_reach (contents_of_dependencyOf? dep)).mp reaches
    exact ⟨p, mem, Option.bind_eq_some_iff.mpr ⟨h, dep, known⟩⟩

theorem resourceName?_eq_some_iff {arena : Arena} {h : Int} {t : String} :
    s.resourceName? arena h = some t ↔
      ∃ e, arena.entry? h = some (t, e) ∧ (s.entity e).kind = .resource := by
  unfold resourceName?
  cases found : arena.entry? h with
  | none => simp
  | some entry =>
    obtain ⟨name, e⟩ := entry
    cases kind : (s.entity e).kind with
    | resource => simp [kind]
    | property => simp [kind]

/-- The entity `id` depends on the resource that the namespace calls `t`: it reaches a reference to
that resource, which is not `id` itself, or the resource as a value. -/
def DependsOn (s : Store) (n : Namespace) (id : Nat) (t : String) : Prop :=
  ∃ e, (t, .entity e) ∈ n ∧ (s.entity e).kind = .resource ∧
    ((∃ ref, s.Reaches id (.reference ref) ∧ (s.reference ref).parent = handle e ∧
        handle e ≠ handle id) ∨
      s.Reaches id (.entity e))

theorem mem_dependencies_ofNamespace {n : Namespace} (once : (n.entities.map (·.2)).Nodup)
    {id : Nat} {t : String} :
    t ∈ s.dependencies (Arena.ofNamespace n) id ↔ s.DependsOn n id t := by
  rw [mem_dependencies]
  constructor
  · rintro ⟨v, reaches, h, dep, known⟩
    obtain ⟨e, found, kind⟩ := resourceName?_eq_some_iff.mp known
    obtain ⟨mem, rfl⟩ := (Arena.entry?_eq_some_iff once).mp found
    refine ⟨e, Namespace.mem_entities.mp mem, kind, ?_⟩
    match v with
    | .reference ref =>
      simp only [dependencyOf?] at dep
      split at dep
      · cases dep
      · next other =>
        have parent : (s.reference ref).parent = handle e := by simpa using dep
        exact .inl ⟨ref, reaches, parent, parent ▸ other⟩
    | .entity f =>
      cases here : (s.entity f).kind with
      | resource =>
        have eq : f = e := by simpa [dependencyOf?, here] using dep
        exact .inr (eq ▸ reaches)
      | property => simp [dependencyOf?, here] at dep
    | .null | .bool _ | .int _ | .float _ | .text _ | .bytes _ | .path _ | .moment _ | .module
    | .function | .sequence _ | .mapping _ | .output _ | .intrinsic _ | .constructor _
    | .definition _ | .composite _ => cases dep
  · rintro ⟨e, mem, kind, how⟩
    have known : s.resourceName? (Arena.ofNamespace n) (handle e) = some t :=
      resourceName?_eq_some_iff.mpr
        ⟨e, (Arena.entry?_eq_some_iff once).mpr ⟨Namespace.mem_entities.mpr mem, rfl⟩, kind⟩
    rcases how with ⟨ref, reaches, parent, other⟩ | reaches
    · exact ⟨_, reaches, handle e, by simp only [dependencyOf?, parent, if_neg other], known⟩
    · exact ⟨_, reaches, handle e, by simp only [dependencyOf?, kind], known⟩

/-! ## The graph -/

theorem dependencyGraph_result (s : Store) (n : Namespace) (given : Option Arena) :
    (s.dependencyGraph n given).result =
      n.entities.map fun entry => (entry.1, s.dependencies (Arena.orOfNamespace given n) entry.2) :=
  rfl

theorem nodes_dependencyGraph (s : Store) (n : Namespace) (given : Option Arena) :
    (s.dependencyGraph n given).result.nodes = n.entities.map (·.1) := by
  rw [dependencyGraph_result, Graph.nodes, List.map_map]
  rfl

theorem listed_dependencyGraph {n : Namespace} (names : (n.map (·.1)).Nodup)
    (given : Option Arena) {name : String} {id : Nat} (mem : (name, .entity id) ∈ n) :
    (s.dependencyGraph n given).result.listed name =
      s.dependencies (Arena.orOfNamespace given n) id := by
  have nodes : ((s.dependencyGraph n given).result.map (·.1)).Nodup := by
    rw [← Graph.nodes, nodes_dependencyGraph]
    exact n.entities_names_sublist.nodup names
  have entry : (name, s.dependencies (Arena.orOfNamespace given n) id) ∈
      (s.dependencyGraph n given).result :=
    List.mem_map.mpr ⟨(name, id), Namespace.mem_entities.mpr mem, rfl⟩
  rw [Graph.listed, (lookup_eq_some_iff_mem nodes).mpr entry, Option.getD_some]

theorem exists_of_mem_listed {n : Namespace} {given : Option Arena} {name t : String}
    (mem : t ∈ (s.dependencyGraph n given).result.listed name) :
    ∃ id, (name, .entity id) ∈ n := by
  cases found : (s.dependencyGraph n given).result.lookup name with
  | none =>
    rw [Graph.listed, found] at mem
    cases mem
  | some targets =>
    obtain ⟨before, after, split, -⟩ := List.lookup_eq_some_iff.mp found
    have node : name ∈ (s.dependencyGraph n given).result.nodes := by
      rw [split, Graph.nodes]
      simp
    rw [nodes_dependencyGraph] at node
    obtain ⟨⟨_, id⟩, inside, rfl⟩ := List.mem_map.mp node
    exact ⟨id, Namespace.mem_entities.mp inside⟩

/-- In a namespace that does not repeat an entity, the graph lists the entities in order and has
exactly the edges from an entity to the resources that it depends on. -/
theorem dependencyGraph_spec (s : Store) (n : Namespace) (names : (n.map (·.1)).Nodup)
    (once : (n.entities.map (·.2)).Nodup) :
    let g := (s.dependencyGraph n (some (Arena.ofNamespace n))).result
    g.nodes = n.entities.map (·.1) ∧
      ∀ name t, t ∈ g.listed name ↔ ∃ id, (name, .entity id) ∈ n ∧ s.DependsOn n id t := by
  intro g
  have arena : Arena.orOfNamespace (some (Arena.ofNamespace n)) n = Arena.ofNamespace n := by
    simp only [Arena.orOfNamespace, ite_self]
  have edge : ∀ name id t, (name, .entity id) ∈ n → (t ∈ g.listed name ↔ s.DependsOn n id t) := by
    intro name id t inside
    rw [listed_dependencyGraph names _ inside, arena, mem_dependencies_ofNamespace once]
  refine ⟨nodes_dependencyGraph s n _, fun name t => ⟨fun mem => ?_, fun ⟨id, inside, dep⟩ => ?_⟩⟩
  · obtain ⟨id, inside⟩ := exists_of_mem_listed mem
    exact ⟨id, inside, (edge name id t inside).mp mem⟩
  · exact (edge name id t inside).mpr dep

/-- A queue that reads an attribute of a bucket depends on it. -/
theorem dependencyGraph_spec_queue :
    let n : Namespace := [("bucket", .entity 0), ("queue", .entity 1)]
    (n.map (·.1)).Nodup ∧ (n.entities.map (·.2)).Nodup ∧
      "bucket" ∈
        (queueStore.dependencyGraph n (some (Arena.ofNamespace n))).result.listed "queue" := by
  intro n
  have names : (n.map (·.1)).Nodup := by decide
  have once : (n.entities.map (·.2)).Nodup := by decide
  have reads : (Value.text "source", Value.reference 0) ∈ queueStore.props 1 := by decide
  refine ⟨names, once,
    ((dependencyGraph_spec queueStore n names once).2 "queue" "bucket").mpr ⟨1, by decide, ?_⟩⟩
  exact ⟨0, by decide, by decide, .inl ⟨0, .prop reads, by decide, by decide⟩⟩

end Store
end Infra
