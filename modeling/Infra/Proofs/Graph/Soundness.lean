import Infra.Proofs.Graph.Canonical
import Infra.Proofs.Graph.Search

/-!
# The search for cycles reports cycles only

* `Listed found` : the found cycles are in canonical form, repeat no member and are listed once;
* `Search.Reachable g s` : the search of `g` can come to `s`; every such search has `Listed` cycles
  (`Search.Reachable.listed`), and the recorded parents spell its trail (`Search.Reachable.wayBack`);
* `Search.reachable_search` : the search of a graph ends after finitely many moves;
* `cycles_sound` : what is found are circuits of the graph, each from its smallest member on, and no
  two of them are one another turned.
-/

namespace Infra.Graph

/-- The found cycles are in canonical form, repeat no member and are listed once. -/
structure Listed (found : List (List String)) : Prop where
  once : found.Nodup
  simple : ∀ c ∈ found, c.Nodup
  form : ∀ c ∈ found, canonical c = c

theorem Listed.withCycle {found : List (List String)} (h : Listed found) {c : List String}
    (simple : c.Nodup) : Listed (Search.withCycle found (canonical c)) := by
  constructor
  · unfold Search.withCycle
    split
    · exact h.once
    · next new =>
      have fresh : canonical c ∉ found := by simpa using new
      simpa using h.once.concat fresh
  · intro d mem
    rcases Search.mem_withCycle.mp mem with old | rfl
    · exact h.simple d old
    · exact canonical_nodup simple
  · intro d mem
    rcases Search.mem_withCycle.mp mem with old | rfl
    · exact h.form d old
    · exact canonical_canonical simple

/-- Different cycles of the list are not one another turned. -/
theorem Listed.pairwise_not_isRotated {found : List (List String)} (h : Listed found) :
    found.Pairwise fun c d => ¬ c ~r d := by
  refine List.Pairwise.imp_of_mem (fun {c d} first second ne turned => ne ?_) h.once
  have same := canonical_eq_of_isRotated turned (h.simple c first)
  rwa [h.form c first, h.form d second] at same

namespace Search

/-- The search of a graph can come to this state. -/
inductive Reachable (g : Graph) : Search → Prop
  | start : Reachable g ⟨[], [], [], []⟩
  | enter {s : Search} {node : String} : Reachable g s → s.trail = [] → node ∈ g.nodes →
    s.seen node = false → Reachable g (s.enter g node)
  | step {s : Search} : Reachable g s → s.trail ≠ [] → Reachable g (s.step g)

variable {g : Graph} {s : Search}

theorem Reachable.invariant (h : Reachable g s) : s.Invariant g := by
  induction h with
  | start => exact invariant_start g
  | @enter s node _ idle _ new ih =>
    refine ih.enter idle fun done => ?_
    rw [seen_iff.mpr (.inr done)] at new
    cases new
  | step _ busy ih => exact ih.move (move_step busy)

/-! ## The way back -/

/-- When an edge leads from the innermost node to a node of the trail, the recorded parents lead
back to that node, and they do so down the trail. -/
theorem Reachable.wayBack (h : Reachable g s) {node next : String} {below : List String}
    (top : s.path = node :: below) (mem : next ∈ s.path) :
    walkBack s.parents next node = some (s.path.takeWhile (· != next)) ∧
      (s.path.takeWhile (· != next) ++ [next]).IsChain fun child parent =>
        s.parents.lookup child = some parent := by
  have linked : s.path.IsChain fun child parent => s.parents.lookup child = some parent :=
    h.invariant.linked.imp fun _ _ both => both.1
  constructor
  · have nodup := h.invariant.path_nodup
    rw [top] at linked nodup mem ⊢
    exact walkBack_eq nodup linked mem
  · obtain ⟨rest, split⟩ := takeWhile_concat_isPrefix mem
    exact List.IsChain.left_of_append (split ▸ linked)

theorem Invariant.closed_nodup (h : s.Invariant g) {next : String} (mem : next ∈ s.path) :
    (next :: (s.path.takeWhile (· != next)).reverse).Nodup := by
  have front := h.path_nodup.sublist (takeWhile_concat_isPrefix mem).sublist
  simpa using List.nodup_reverse.mpr front

/-! ## What is found -/

theorem Listed.move {t : Search} (h : s.Invariant g) (listed : Listed s.found) (move : Move g s t) :
    Listed t.found := by
  cases move with
  | leave => exact listed
  | @close node next pending rest parents finished found cycle onTrail closes =>
    obtain rfl := h.cycle_eq rfl onTrail closes
    exact listed.withCycle (h.closed_nodup onTrail)
  | stray => exact listed
  | skip => exact listed
  | descend => exact listed

theorem Reachable.listed (h : Reachable g s) : Listed s.found := by
  induction h with
  | start => exact ⟨.nil, by simp, by simp⟩
  | enter _ _ _ _ ih => exact ih
  | step before busy ih => exact Listed.move before.invariant ih (move_step busy)

/-! ## The end of the search -/

theorem Reachable.run (h : Reachable g s) : Reachable g (s.run g) := by
  induction s using Search.run.induct (g := g) with
  | case1 s done => rwa [Search.run, dif_pos done]
  | case2 s busy ih =>
    rw [Search.run, dif_neg busy]
    exact ih (h.step busy)

theorem Reachable.visits : ∀ {nodes : List String} {s : Search}, Reachable g s → s.trail = [] →
    nodes ⊆ g.nodes → Reachable g (nodes.foldl (Search.visit g) s)
  | [], _, h, _, _ => h
  | node :: nodes, s, h, idle, sub => by
    have visited : Reachable g (s.visit g node) := by
      unfold Search.visit
      split
      · exact h
      · next new => exact (h.enter idle (sub List.mem_cons_self) (by simpa using new)).run
    have done := (h.invariant.visit idle node).2.1
    exact visited.visits done (List.subset_of_cons_subset sub)

/-- The search of a graph comes to its end. -/
theorem reachable_search (g : Graph) : Reachable g g.search ∧ g.search.trail = [] := by
  have begun : Reachable g ⟨[], [], [], []⟩ := .start
  exact ⟨begun.visits rfl (List.Subset.refl _), (begun.invariant.visits rfl).2.1⟩

end Search

/-- The search for cycles ends. Whenever it meets an edge from its innermost node back to a node of
its trail, the recorded parents lead back to that node, down the trail. What it has found in the end
are circuits through different nodes of the graph, each listed from its smallest member on, and no
two of them are one another turned. -/
theorem cycles_sound (g : Graph) :
    (Search.Reachable g g.search ∧ g.search.trail = []) ∧
    (∀ s, Search.Reachable g s → ∀ node next pending rest,
      s.trail = ⟨node, next :: pending⟩ :: rest → next ∈ s.path →
        walkBack s.parents next node = some (s.path.takeWhile (· != next)) ∧
        (s.path.takeWhile (· != next) ++ [next]).IsChain fun child parent =>
          s.parents.lookup child = some parent) ∧
    (∀ c ∈ g.cycles, g.Circuit c ∧ c.Nodup ∧ (∀ u ∈ c, u ∈ g.nodes) ∧
      ∃ least rest, c = least :: rest ∧ ∀ u ∈ c, least ≤ u) ∧
    g.cycles.Pairwise fun c d => ¬ c ~r d := by
  obtain ⟨reachable, ended⟩ := Search.reachable_search g
  have listed := reachable.listed
  refine ⟨⟨reachable, ended⟩, ?_, fun c mem => ?_, listed.pairwise_not_isRotated⟩
  · intro s h node next pending rest top mem
    have path : s.path = node :: rest.map (·.node) := by rw [Search.path, top, List.map_cons]
    exact h.wayBack path mem
  · have circuit := reachable.invariant.real c mem
    obtain ⟨least, rest, form, smallest⟩ := canonical_eq_cons circuit.nonempty
    rw [listed.form c mem] at form
    exact ⟨circuit, listed.simple c mem, fun u => circuit.mem_nodes, least, rest, form, smallest⟩

end Infra.Graph
