import Infra.Graph.Cycle
import Mathlib.Data.List.Chain
import Mathlib.Data.List.Rotate

/-!
# Circuits of a graph

* `Edge g u v` : `v` is listed among the neighbours of `u`;
* `edgesAround c` : the edges of the closed walk through the members of `c`, the last one leading
  back to the first; turning `c` keeps them (`mem_edgesAround_of_isRotated`);
* `Circuit g c` : a closed walk along edges of the graph (`circuit_of_isChain`);
* `canonical_isRotated` : the canonical form of a cycle is the cycle turned.
-/

namespace Infra.Graph

/-- The graph has an edge from `u` to `v`. -/
def Edge (g : Graph) (u v : String) : Prop := v ∈ g.listed u

/-- The edges of the closed walk through the members of a list, in order. -/
def edgesAround (c : List String) : List (String × String) := c.zip (c.rotate 1)

/-- A closed walk along edges of the graph, of at least one edge. -/
structure Circuit (g : Graph) (c : List String) : Prop where
  nonempty : c ≠ []
  edges : ∀ e ∈ edgesAround c, g.Edge e.1 e.2

theorem mem_neighbours {g : Graph} {u v : String} : v ∈ g.neighbours u ↔ g.Edge u v :=
  Text.mem_sorted

theorem Edge.mem_nodes {g : Graph} {u v : String} (h : g.Edge u v) : u ∈ g.nodes := by
  unfold Edge listed at h
  cases known : g.lookup u with
  | none =>
    rw [known] at h
    exact absurd h (by simp)
  | some targets =>
    obtain ⟨front, back, eq, -⟩ := List.lookup_eq_some_iff.mp known
    rw [nodes, eq]
    simp

/-! ## Edges of a closed walk -/

theorem edgesAround_cons (a : String) (l : List String) :
    edgesAround (a :: l) = (a :: l).zip (l ++ [a]) := by
  rw [edgesAround, List.rotate_cons_succ, List.rotate_zero]

theorem edgesAround_rotate (c : List String) (k : Nat) :
    edgesAround (c.rotate k) = (edgesAround c).rotate k := by
  unfold edgesAround
  rw [List.rotate_rotate, Nat.add_comm, ← List.rotate_rotate, List.zip_eq_zipWith,
    List.zip_eq_zipWith, List.zipWith_rotate_distrib _ _ _ _ (by simp)]

theorem mem_edgesAround_of_isRotated {c d : List String} (h : c ~r d) (e : String × String) :
    e ∈ edgesAround c ↔ e ∈ edgesAround d := by
  obtain ⟨k, rfl⟩ := h
  rw [edgesAround_rotate, List.mem_rotate]

/-- A closed walk leads from its last member back to its first one. -/
theorem mem_edgesAround_of_eq_append {a u : String} {l : List String} (init : List String)
    (h : a :: l = init ++ [u]) : (u, a) ∈ edgesAround (a :: l) := by
  have same : init.length = l.length := by
    have := congrArg List.length h
    simp at this
    omega
  rw [edgesAround_cons, h, List.zip_append same]
  simp

theorem exists_edge_into {c : List String} {v : String} (h : v ∈ c) :
    ∃ u ∈ c, (u, v) ∈ edgesAround c := by
  have targets : (edgesAround c).map Prod.snd = c.rotate 1 :=
    List.map_snd_zip (by simp)
  have : v ∈ (edgesAround c).map Prod.snd := by rwa [targets, List.mem_rotate]
  obtain ⟨⟨u, w⟩, mem, rfl⟩ := List.mem_map.mp this
  exact ⟨u, (List.of_mem_zip mem).1, mem⟩

theorem exists_edge_from {c : List String} {u : String} (h : u ∈ c) :
    ∃ v, (u, v) ∈ edgesAround c := by
  have sources : (edgesAround c).map Prod.fst = c := List.map_fst_zip (by simp)
  have : u ∈ (edgesAround c).map Prod.fst := by rwa [sources]
  obtain ⟨⟨w, v⟩, mem, rfl⟩ := List.mem_map.mp this
  exact ⟨v, mem⟩

theorem Circuit.mem_nodes {g : Graph} {c : List String} (h : g.Circuit c) {u : String}
    (mem : u ∈ c) : u ∈ g.nodes := by
  obtain ⟨v, edge⟩ := exists_edge_from mem
  exact (h.edges _ edge).mem_nodes

/-- The pairs of neighbours in a list all stand in a relation when the list is a chain. -/
theorem zip_of_isChain {R : String → String → Prop} {b : String} : ∀ {a : String} {l : List String},
    (a :: (l ++ [b])).IsChain R → ∀ e ∈ (a :: l).zip (l ++ [b]), R e.1 e.2
  | a, [], h, e, mem => by
    simp only [List.nil_append, List.zip_cons_cons, List.zip_nil_left, List.mem_singleton] at mem
    subst mem
    exact (List.isChain_cons_cons.mp h).1
  | a, a' :: l, h, e, mem => by
    obtain ⟨first, others⟩ := List.isChain_cons_cons.mp h
    rw [List.cons_append, List.zip_cons_cons, List.mem_cons] at mem
    rcases mem with rfl | mem
    · exact first
    · exact zip_of_isChain others e mem

/-- A chain of edges that comes back to where it began is a circuit. -/
theorem circuit_of_isChain {g : Graph} {a : String} {l : List String}
    (h : (a :: (l ++ [a])).IsChain g.Edge) : g.Circuit (a :: l) := by
  refine ⟨by simp, fun e mem => ?_⟩
  rw [edgesAround_cons] at mem
  exact zip_of_isChain h e mem

theorem Circuit.of_isRotated {g : Graph} {c d : List String} (h : g.Circuit c) (turned : c ~r d) :
    g.Circuit d := by
  refine ⟨fun eq => h.nonempty ?_, fun e mem => ?_⟩
  · rw [eq] at turned
    exact List.isRotated_nil_iff.mp turned
  · exact h.edges e ((mem_edgesAround_of_isRotated turned e).mpr mem)

/-! ## Canonical form -/

theorem rotateTo_isRotated (start : String) (names : List String) :
    names ~r rotateTo start names := by
  let front := names.takeWhile (· != start)
  let back := names.dropWhile (· != start)
  have split : front ++ back = names := List.takeWhile_append_dropWhile
  refine ⟨front.length, ?_⟩
  calc names.rotate front.length = (front ++ back).rotate front.length := by rw [split]
    _ = back ++ front := List.rotate_append_length_eq front back
    _ = rotateTo start names := rfl

theorem canonical_isRotated (c : List String) : c ~r canonical c := by
  cases c with
  | nil => exact List.IsRotated.refl _
  | cons name names => exact rotateTo_isRotated _ _

end Infra.Graph
