import Infra.Proofs.Graph.Search

/-!
# The search for cycles misses no circularity

A depth-first search finishes the end of an edge before its start, unless the edge closes a cycle.
Around a circuit that cannot go on for ever, so one of its edges closes a cycle that is reported.

* `Settled.exists_reported` : a circuit through settled nodes has a reported edge;
* `cycles_meet_circuits` : every circuit shares an edge with a cycle that is found, and a graph
  without circuits is one in which none is found.
-/

namespace Infra.Graph

/-- A circuit through settled nodes, none of which is listed twice, has a reported edge. -/
theorem Settled.exists_reported {g : Graph} {found : List (List String)} {c : List String}
    (circuit : g.Circuit c) : ∀ {finished : List String}, Settled g found finished →
    finished.Nodup → c ⊆ finished → ∃ e ∈ edgesAround c, Reported found e.1 e.2
  | [], _, _, sub => absurd (List.subset_nil.mp sub) circuit.nonempty
  | last :: earlier, settled, nodup, sub => by
    obtain ⟨fresh, nodup⟩ := List.nodup_cons.mp nodup
    by_cases mem : last ∈ c
    · -- The edge into the node that was finished last cannot come from a node finished later.
      obtain ⟨u, inside, around⟩ := exists_edge_into mem
      have edge : g.Edge u last := circuit.edges _ around
      have node : last ∈ g.nodes := circuit.mem_nodes mem
      have either : last ∈ earlier ∨ Reported found u last := by
        rcases List.mem_cons.mp (sub inside) with rfl | before
        · exact settled.1 u edge node
        · exact settled.2.mem_or_reported edge node before
      exact ⟨(u, last), around, either.resolve_left fresh⟩
    · refine Settled.exists_reported circuit settled.2 nodup fun u inside => ?_
      exact List.mem_of_ne_of_mem (fun eq => mem (by rwa [← eq])) (sub inside)

/-- Every circuit, a single edge from a node to itself included, shares an edge with one of the
cycles that are found; and none is found exactly when the graph has no circuit. -/
theorem cycles_meet_circuits (g : Graph) :
    (∀ c, g.Circuit c → ∃ d ∈ g.cycles, ∃ e ∈ edgesAround c, e ∈ edgesAround d) ∧
      (g.cycles = [] ↔ ∀ c, ¬ g.Circuit c) := by
  obtain ⟨kept, all⟩ := search_spec g
  have meets : ∀ c, g.Circuit c → ∃ d ∈ g.cycles, ∃ e ∈ edgesAround c, e ∈ edgesAround d := by
    intro c circuit
    obtain ⟨e, around, d, mem, onCycle⟩ := kept.settled.exists_reported circuit
      kept.finished_nodup fun u inside => all u (circuit.mem_nodes inside)
    exact ⟨d, mem, e, around, onCycle⟩
  refine ⟨meets, fun none c circuit => ?_, fun acyclic => ?_⟩
  · obtain ⟨d, mem, -⟩ := meets c circuit
    rw [none] at mem
    cases mem
  · refine List.eq_nil_iff_forall_not_mem.mpr fun d mem => ?_
    exact acyclic d (kept.real d mem)

end Infra.Graph
