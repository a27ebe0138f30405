import Infra.Proofs.Graph.Circuit

/-!
# What the search for cycles keeps

* `Reported found u v` : a found cycle runs along the edge from `u` to `v`;
* `Settled g found finished` : every edge from a finished node is reported or leads to a node
  finished before it; `Followed` : the same for the nodes of the trail, whose edges may also be
  pending or lead to the node above;
* `Search.Invariant` : both, and the recorded parents lead down the trail along edges of the graph;
* `Search.Invariant.closedBy?_eq` : the walk back from an edge that closes a cycle arrives;
* `Search.Move`, `Search.move_step`, `Search.Move.step_eq` : what one move can do, and nothing else;
  `Search.Invariant.move` : it keeps the invariant, so a search that runs to its end does
  (`Search.Invariant.run`);
* `search_spec` : the search of a graph ends with every node finished.
-/

namespace Infra.Graph

/-- The edge from `u` to `v` lies on a cycle that was found. -/
def Reported (found : List (List String)) (u v : String) : Prop :=
  ∃ c ∈ found, (u, v) ∈ edgesAround c

/-- Of the finished nodes, the last one first, each edge inside the graph is reported or leads to a
node that was finished before. -/
def Settled (g : Graph) (found : List (List String)) : List String → Prop
  | [] => True
  | u :: earlier =>
    (∀ v, g.Edge u v → v ∈ g.nodes → v ∈ earlier ∨ Reported found u v) ∧ Settled g found earlier

/-- Of the nodes of a trail below the node `above`, each edge inside the graph is still pending,
leads to the node above it or to a finished one, or is reported. -/
def Followed (g : Graph) (found : List (List String)) (finished : List String) :
    Option String → List Frame → Prop
  | _, [] => True
  | above, f :: rest =>
    (∀ v, g.Edge f.node v → v ∈ g.nodes →
      v ∈ f.pending ∨ above = some v ∨ v ∈ finished ∨ Reported found f.node v) ∧
    Followed g found finished (some f.node) rest

theorem Reported.mono {found found' : List (List String)} (sub : found ⊆ found') {u v : String}
    (h : Reported found u v) : Reported found' u v := by
  obtain ⟨c, mem, edge⟩ := h
  exact ⟨c, sub mem, edge⟩

theorem Settled.mono {g : Graph} {found found' : List (List String)} (sub : found ⊆ found') :
    ∀ {finished : List String}, Settled g found finished → Settled g found' finished
  | [], _ => trivial
  | _ :: _, ⟨first, others⟩ =>
    ⟨fun v edge mem => (first v edge mem).imp_right (Reported.mono sub), others.mono sub⟩

theorem Followed.mono {g : Graph} {found found' : List (List String)} {finished : List String}
    (sub : found ⊆ found') : ∀ {above : Option String} {trail : List Frame},
    Followed g found finished above trail → Followed g found' finished above trail
  | _, [], _ => trivial
  | _, _ :: _, ⟨first, others⟩ =>
    ⟨fun v edge mem => (first v edge mem).imp_right (.imp_right (.imp_right (Reported.mono sub))),
      others.mono sub⟩

theorem Followed.mono_finished {g : Graph} {found : List (List String)} {finished : List String}
    (node : String) : ∀ {above : Option String} {trail : List Frame},
    Followed g found finished above trail → Followed g found (node :: finished) above trail
  | _, [], _ => trivial
  | _, _ :: _, ⟨first, others⟩ =>
    ⟨fun v edge mem => (first v edge mem).imp_right
        (.imp_right (.imp_left (List.mem_cons_of_mem node))),
      others.mono_finished node⟩

theorem Followed.leave {g : Graph} {found : List (List String)} {finished : List String}
    {node : String} {trail : List Frame} (h : Followed g found finished (some node) trail) :
    Followed g found (node :: finished) none trail := by
  cases trail with
  | nil => trivial
  | cons f rest =>
    obtain ⟨first, others⟩ := h.mono_finished node
    refine ⟨fun v edge mem => ?_, others⟩
    rcases first v edge mem with pending | above | done
    · exact .inl pending
    · cases above
      exact .inr (.inr (.inl List.mem_cons_self))
    · exact .inr (.inr done)

/-- An edge from a settled node is reported or leads to a settled node. -/
theorem Settled.mem_or_reported {g : Graph} {found : List (List String)} {u v : String}
    (edge : g.Edge u v) (inside : v ∈ g.nodes) : ∀ {finished : List String},
    Settled g found finished → u ∈ finished → v ∈ finished ∨ Reported found u v
  | [], _, mem => absurd mem (by simp)
  | _ :: _, ⟨first, others⟩, mem => by
    rcases List.mem_cons.mp mem with rfl | mem
    · exact (first v edge inside).imp_left (List.mem_cons_of_mem u)
    · exact (others.mem_or_reported edge inside mem).imp_left (List.mem_cons_of_mem _)

namespace Search

/-- What holds of a search between two moves. -/
structure Invariant (g : Graph) (s : Search) : Prop where
  nodup : (s.path ++ s.finished).Nodup
  linked : s.path.IsChain fun child parent =>
    s.parents.lookup child = some parent ∧ g.Edge parent child
  pending : ∀ f ∈ s.trail, ∀ v ∈ f.pending, g.Edge f.node v
  followed : Followed g s.found s.finished none s.trail
  settled : Settled g s.found s.finished
  real : ∀ c ∈ s.found, g.Circuit c

variable {g : Graph} {s : Search}

theorem Invariant.path_nodup (h : s.Invariant g) : s.path.Nodup := h.nodup.of_append_left

theorem Invariant.finished_nodup (h : s.Invariant g) : s.finished.Nodup := h.nodup.of_append_right

/-! ## Walking back -/

theorem lookup_erase_of_ne {parents : List (String × String)} {node child : String}
    (ne : child ≠ node) : (Named.erase parents node).lookup child = parents.lookup child := by
  unfold Named.erase
  induction parents with
  | nil => rfl
  | cons entry rest ih =>
    obtain ⟨key, parent⟩ := entry
    by_cases eq : key = node
    · have : (child == key) = false := beq_eq_false_iff_ne.mpr (eq ▸ ne)
      rw [List.filter_cons_of_neg (by simp [eq]), ih, List.lookup_cons, this]
    · rw [List.filter_cons_of_pos (by simpa using eq), List.lookup_cons, List.lookup_cons, ih]

/-- Parents that lead down a path lead back to each of its members. -/
theorem walkBack_eq {target : String} : ∀ {parents : List (String × String)} {node : String}
    {below : List String}, (node :: below).Nodup →
    (node :: below).IsChain (fun child parent => parents.lookup child = some parent) →
    target ∈ node :: below →
    walkBack parents target node = some ((node :: below).takeWhile (· != target)) := by
  intro parents node below
  induction below generalizing parents node with
  | nil =>
    intro _ _ mem
    obtain rfl := List.mem_singleton.mp mem
    rw [walkBack, if_pos rfl]
    simp
  | cons parent below ih =>
    intro nodup linked mem
    obtain ⟨first, others⟩ := List.isChain_cons_cons.mp linked
    obtain ⟨fresh, nodup⟩ := List.nodup_cons.mp nodup
    by_cases eq : node = target
    · rw [walkBack, if_pos eq]
      simp [eq]
    · have linked : (parent :: below).IsChain fun child above =>
          (Named.erase parents node).lookup child = some above := by
        refine others.imp_of_mem_imp fun child above mem _ known => ?_
        have ne : child ≠ node := fun eq => fresh (by rwa [← eq])
        rw [lookup_erase_of_ne ne, known]
      have arrives := ih nodup linked (List.mem_of_ne_of_mem (Ne.symm eq) mem)
      rw [walkBack, if_neg eq]
      split
      · rename_i unknown
        rw [first] at unknown
        cases unknown
      · rename_i found known
        rw [first] at known
        cases known
        rw [arrives, Option.map_some]
        simp [List.takeWhile_cons, eq]

/-- The walk back from the innermost node arrives at each node of the trail. -/
theorem Invariant.closedBy?_eq (h : s.Invariant g) {node next : String} {below : List String}
    (top : s.path = node :: below) (mem : next ∈ s.path) :
    s.closedBy? node next = some (next :: (s.path.takeWhile (· != next)).reverse) := by
  have linked : s.path.IsChain fun child parent => s.parents.lookup child = some parent :=
    h.linked.imp fun _ _ both => both.1
  have nodup := h.path_nodup
  rw [top] at linked nodup mem ⊢
  rw [closedBy?, walkBack_eq nodup linked mem, Option.map_some]

/-- So the cycle that an edge to a node of the trail closes is the trail down to that node. -/
theorem Invariant.cycle_eq (h : s.Invariant g) {node next : String} {below cycle : List String}
    (top : s.path = node :: below) (mem : next ∈ s.path)
    (closes : s.closedBy? node next = some cycle) :
    cycle = next :: (s.path.takeWhile (· != next)).reverse :=
  Option.some.inj (closes.symm.trans (h.closedBy?_eq top mem))

theorem takeWhile_concat_isPrefix {next : String} : ∀ {l : List String}, next ∈ l →
    l.takeWhile (· != next) ++ [next] <+: l
  | [], mem => absurd mem (by simp)
  | a :: l, mem => by
    by_cases eq : a = next
    · rw [List.takeWhile_cons_of_neg (by simp [eq]), eq]
      exact ⟨l, rfl⟩
    · rw [List.takeWhile_cons_of_pos (by simpa using eq), List.cons_append]
      exact List.cons_prefix_cons.mpr
        ⟨rfl, takeWhile_concat_isPrefix (List.mem_of_ne_of_mem (Ne.symm eq) mem)⟩

/-- The trail down to one of its nodes, after an edge from the innermost node to that one, is a
circuit. -/
theorem Invariant.circuit_closed (h : s.Invariant g) {node next : String} {below : List String}
    (top : s.path = node :: below) (mem : next ∈ s.path) (edge : g.Edge node next) :
    g.Circuit (next :: (s.path.takeWhile (· != next)).reverse) := by
  have down : s.path.IsChain fun child parent => g.Edge parent child :=
    h.linked.imp fun _ _ both => both.2
  obtain ⟨rest, split⟩ := takeWhile_concat_isPrefix mem
  have closed : (next :: (s.path.takeWhile (· != next) ++ [next])).IsChain
      fun child parent => g.Edge parent child := by
    refine List.IsChain.cons (List.IsChain.left_of_append (split ▸ down)) fun first isFirst => ?_
    obtain ⟨l, eq⟩ := List.head?_eq_some_iff.mp isFirst
    rw [eq, top, List.cons_append] at split
    rw [(List.cons.inj split).1]
    exact edge
  apply circuit_of_isChain
  have turned := List.isChain_reverse.mpr closed
  simpa using turned

theorem mem_edgesAround_closed {node next : String} {below : List String} {path : List String}
    (top : path = node :: below) :
    (node, next) ∈ edgesAround (next :: (path.takeWhile (· != next)).reverse) := by
  by_cases eq : node = next
  · rw [top, List.takeWhile_cons_of_neg (by simp [eq]), eq]
    exact mem_edgesAround_of_eq_append [] rfl
  · rw [top, List.takeWhile_cons_of_pos (by simpa using eq), List.reverse_cons]
    exact mem_edgesAround_of_eq_append _ (List.cons_append ..).symm

/-! ## One move -/

/-- The found cycles together with one more, which is not listed again. -/
def withCycle (found : List (List String)) (c : List String) : List (List String) :=
  if found.contains c then found else found ++ [c]

theorem report_eq (s : Search) (c : List String) :
    s.report c = { s with found := withCycle s.found c } := by
  unfold report withCycle
  split <;> rfl

theorem mem_withCycle {found : List (List String)} {c d : List String} :
    d ∈ withCycle found c ↔ d ∈ found ∨ d = c := by
  unfold withCycle
  split
  · rename_i again
    have : c ∈ found := by simpa using again
    exact ⟨.inl, fun either => either.elim id fun eq => eq ▸ this⟩
  · simp

theorem withCycle_of_mem {found : List (List String)} {c : List String} (mem : c ∈ found) :
    withCycle found c = found := if_pos (List.contains_iff_mem.mpr mem)

theorem subset_withCycle (found : List (List String)) (c : List String) :
    found ⊆ withCycle found c := fun _ mem => mem_withCycle.mpr (.inl mem)

/-- The moves of a search: it leaves a node without pending edges, or takes the next pending edge,
which closes a cycle, leads nowhere new, or leads on. -/
inductive Move (g : Graph) : Search → Search → Prop
  | leave {node rest parents finished found} :
    Move g ⟨⟨node, []⟩ :: rest, parents, finished, found⟩
      ⟨rest, parents, node :: finished, found⟩
  | close {node next pending rest parents finished found cycle}
    (onTrail : next ∈ node :: rest.map (·.node))
    (closes :
      closedBy? ⟨⟨node, pending⟩ :: rest, parents, finished, found⟩ node next = some cycle) :
    Move g ⟨⟨node, next :: pending⟩ :: rest, parents, finished, found⟩
      ⟨⟨node, pending⟩ :: rest, parents, finished, withCycle found (canonical cycle)⟩
  | stray {node next pending rest parents finished found}
    (onTrail : next ∈ node :: rest.map (·.node))
    (strays : closedBy? ⟨⟨node, pending⟩ :: rest, parents, finished, found⟩ node next = none) :
    Move g ⟨⟨node, next :: pending⟩ :: rest, parents, finished, found⟩
      ⟨⟨node, pending⟩ :: rest, parents, finished, found⟩
  | skip {node next pending rest parents finished found}
    (offTrail : next ∉ node :: rest.map (·.node)) (known : next ∈ finished ∨ next ∉ g.nodes) :
    Move g ⟨⟨node, next :: pending⟩ :: rest, parents, finished, found⟩
      ⟨⟨node, pending⟩ :: rest, parents, finished, found⟩
  | descend {node next pending rest parents finished found}
    (offTrail : next ∉ node :: rest.map (·.node)) (unfinished : next ∉ finished)
    (inside : next ∈ g.nodes) :
    Move g ⟨⟨node, next :: pending⟩ :: rest, parents, finished, found⟩
      ⟨⟨next, g.neighbours next⟩ :: ⟨node, pending⟩ :: rest, (next, node) :: parents, finished,
        found⟩

theorem move_step (h : s.trail ≠ []) : Move g s (s.step g) := by
  obtain ⟨trail, parents, finished, found⟩ := s
  match trail with
  | [] => exact absurd rfl h
  | ⟨node, []⟩ :: rest => exact .leave
  | ⟨node, next :: pending⟩ :: rest =>
    have onTrail_iff : path ⟨⟨node, pending⟩ :: rest, parents, finished, found⟩ =
        node :: rest.map (·.node) := rfl
    unfold step
    dsimp only
    rw [onTrail_iff]
    split
    · rename_i onTrail
      replace onTrail := List.contains_iff_mem.mp onTrail
      split
      · rename_i closes
        rw [report_eq]
        exact .close onTrail closes
      · rename_i strays
        exact .stray onTrail strays
    · rename_i offTrail
      split
      · rename_i known
        exact .skip (by simpa using offTrail) (by simpa using known)
      · rename_i new
        simp only [Bool.or_eq_true, not_or] at new
        exact .descend (by simpa using offTrail) (by simpa using new.1) (by simpa using new.2)

/-- A search makes no other move. -/
theorem Move.step_eq {t : Search} (move : Move g s t) : s.step g = t := by
  cases move with
  | leave => rfl
  | close onTrail closes =>
    refine (if_pos (List.contains_iff_mem.mpr onTrail)).trans ?_
    rw [closes]
    exact report_eq _ _
  | stray onTrail strays =>
    refine (if_pos (List.contains_iff_mem.mpr onTrail)).trans ?_
    rw [strays]
  | skip offTrail known =>
    refine (if_neg (mt List.contains_iff_mem.mp offTrail)).trans (if_pos ?_)
    simpa using known
  | descend offTrail unfinished inside =>
    refine (if_neg (mt List.contains_iff_mem.mp offTrail)).trans (if_neg ?_)
    simp [unfinished, inside]

theorem Invariant.withCycle (h : s.Invariant g) {c : List String} (real : g.Circuit c) :
    Invariant g { s with found := Search.withCycle s.found c } := by
  have sub : s.found ⊆ Search.withCycle s.found c := subset_withCycle s.found c
  constructor
  · exact h.nodup
  · exact h.linked
  · exact h.pending
  · exact h.followed.mono sub
  · exact h.settled.mono sub
  · intro d mem
    rcases mem_withCycle.mp mem with old | rfl
    · exact h.real d old
    · exact real

section Moves

variable {node next : String} {pending : List String} {rest : List Frame}
  {parents : List (String × String)} {finished : List String} {found : List (List String)}

theorem Invariant.leave (h : Invariant g ⟨⟨node, []⟩ :: rest, parents, finished, found⟩) :
    Invariant g ⟨rest, parents, node :: finished, found⟩ := by
  obtain ⟨own, others⟩ := h.followed
  constructor
  · exact List.perm_middle.nodup_iff.mpr h.nodup
  · exact h.linked.tail
  · exact fun f mem => h.pending f (List.mem_cons_of_mem _ mem)
  · exact others.leave
  · refine ⟨fun v edge inside => ?_, h.settled⟩
    rcases own v edge inside with pending | above | done
    · cases pending
    · cases above
    · exact done
  · exact h.real

/-- A pending edge that leads nowhere new is dropped. -/
theorem Invariant.drop (h : Invariant g ⟨⟨node, next :: pending⟩ :: rest, parents, finished, found⟩)
    (known : next ∈ g.nodes → next ∈ finished ∨ Reported found node next) :
    Invariant g ⟨⟨node, pending⟩ :: rest, parents, finished, found⟩ := by
  obtain ⟨own, others⟩ := h.followed
  constructor
  · exact h.nodup
  · exact h.linked
  · intro f mem v later
    rcases List.mem_cons.mp mem with rfl | mem
    · exact h.pending _ List.mem_cons_self v (List.mem_cons_of_mem _ later)
    · exact h.pending f (List.mem_cons_of_mem _ mem) v later
  · refine ⟨fun v edge inside => ?_, others⟩
    rcases own v edge inside with here | above
    · rcases List.mem_cons.mp here with rfl | later
      · exact .inr (.inr (known inside))
      · exact .inl later
    · exact .inr above
  · exact h.settled
  · exact h.real

/-- A pending edge to a node that the search has not met leads on to it. -/
theorem Invariant.descend
    (h : Invariant g ⟨⟨node, next :: pending⟩ :: rest, parents, finished, found⟩)
    (offTrail : next ∉ node :: rest.map (·.node)) (unfinished : next ∉ finished) :
    Invariant g ⟨⟨next, g.neighbours next⟩ :: ⟨node, pending⟩ :: rest, (next, node) :: parents,
      finished, found⟩ := by
  obtain ⟨own, others⟩ := h.followed
  have edge : g.Edge node next := h.pending _ List.mem_cons_self next List.mem_cons_self
  constructor
  · refine List.nodup_cons.mpr ⟨?_, h.nodup⟩
    exact fun met => (List.mem_append.mp met).elim offTrail unfinished
  · refine List.isChain_cons_cons.mpr ⟨⟨by simp, edge⟩, ?_⟩
    refine h.linked.imp_of_mem_imp fun child parent mem _ linked => ⟨?_, linked.2⟩
    have ne : child ≠ next := fun eq => offTrail (by rwa [← eq])
    rw [List.lookup_cons, beq_eq_false_iff_ne.mpr ne]
    exact linked.1
  · intro f mem v later
    rcases List.mem_cons.mp mem with rfl | mem
    · exact mem_neighbours.mp later
    · rcases List.mem_cons.mp mem with rfl | mem
      · exact h.pending _ List.mem_cons_self v (List.mem_cons_of_mem _ later)
      · exact h.pending f (List.mem_cons_of_mem _ mem) v later
  · refine ⟨fun v out _ => .inl (mem_neighbours.mpr out), fun v out inside => ?_, others⟩
    rcases own v out inside with here | above
    · rcases List.mem_cons.mp here with rfl | later
      · exact .inr (.inl rfl)
      · exact .inl later
    · rcases above with above | done
      · cases above
      · exact .inr (.inr done)
  · exact h.settled
  · exact h.real

end Moves

theorem Invariant.move {t : Search} (h : s.Invariant g) (move : Move g s t) : t.Invariant g := by
  cases move with
  | leave => exact h.leave
  | @close node next pending rest parents finished found cycle onTrail closes =>
    have edge : g.Edge node next := h.pending ⟨node, next :: pending⟩ (by simp) next (by simp)
    obtain rfl := h.cycle_eq rfl onTrail closes
    have turned := canonical_isRotated
      (next :: ((node :: rest.map (·.node)).takeWhile (· != next)).reverse)
    have real := (h.circuit_closed rfl onTrail edge).of_isRotated turned
    have around :=
      (mem_edgesAround_of_isRotated turned (node, next)).mp (mem_edgesAround_closed rfl)
    -- Once the cycle is listed, the edge that closes it is accounted for.
    have listed := h.withCycle real
    exact listed.drop fun _ => .inr ⟨_, mem_withCycle.mpr (.inr rfl), around⟩
  | stray onTrail strays =>
    have arrives := (h.closedBy?_eq rfl onTrail).symm.trans strays
    cases arrives
  | skip _ known => exact h.drop fun inside => .inl (known.resolve_right (not_not.mpr inside))
  | descend offTrail unfinished _ => exact h.descend offTrail unfinished

/-! ## All moves -/

theorem seen_iff {u : String} : s.seen u = true ↔ u ∈ s.path ∨ u ∈ s.finished := by
  simp [seen]

theorem Move.seen {t : Search} (move : Move g s t) {u : String} (met : s.seen u = true) :
    t.seen u = true := by
  rw [seen_iff] at met ⊢
  cases move with
  | leave =>
    rcases met with onPath | done
    · rcases List.mem_cons.mp onPath with rfl | below
      · exact .inr List.mem_cons_self
      · exact .inl below
    · exact .inr (List.mem_cons_of_mem _ done)
  | close => exact met
  | stray => exact met
  | skip => exact met
  | descend => exact met.imp_left (List.mem_cons_of_mem _)

/-- A search that runs to its end keeps the invariant and what it has met. -/
theorem Invariant.run (h : s.Invariant g) :
    (s.run g).Invariant g ∧ (s.run g).trail = [] ∧
      ∀ u, s.seen u = true → (s.run g).seen u = true := by
  induction s using Search.run.induct (g := g) with
  | case1 s done =>
    rw [Search.run, dif_pos done]
    exact ⟨h, done, fun _ met => met⟩
  | case2 s busy ih =>
    rw [Search.run, dif_neg busy]
    have move := move_step (g := g) busy
    obtain ⟨kept, done, met⟩ := ih (h.move move)
    exact ⟨kept, done, fun u before => met u (move.seen before)⟩

theorem Invariant.enter (h : s.Invariant g) (idle : s.trail = []) {node : String}
    (new : node ∉ s.finished) : (s.enter g node).Invariant g := by
  obtain ⟨trail, parents, finished, found⟩ := s
  cases idle
  constructor
  · exact List.nodup_cons.mpr ⟨new, h.nodup⟩
  · exact .singleton node
  · intro f mem v later
    obtain rfl := List.mem_singleton.mp mem
    exact mem_neighbours.mp later
  · exact ⟨fun v edge _ => .inl (mem_neighbours.mpr edge), trivial⟩
  · exact h.settled
  · exact h.real

theorem mem_finished_of_seen (idle : s.trail = []) {u : String} (met : s.seen u = true) :
    u ∈ s.finished := by
  rw [seen_iff, path, idle] at met
  exact met.resolve_left (by simp)

theorem Invariant.visit (h : s.Invariant g) (idle : s.trail = []) (node : String) :
    (s.visit g node).Invariant g ∧ (s.visit g node).trail = [] ∧
      node ∈ (s.visit g node).finished ∧ s.finished ⊆ (s.visit g node).finished := by
  unfold Search.visit
  split
  · rename_i met
    exact ⟨h, idle, mem_finished_of_seen idle met, List.Subset.refl _⟩
  · rename_i new
    have new : node ∉ s.finished := fun done => new (seen_iff.mpr (.inr done))
    obtain ⟨kept, done, met⟩ := (h.enter idle new).run
    refine ⟨kept, done, ?_, fun u before => ?_⟩
    · exact mem_finished_of_seen done (met node (seen_iff.mpr (.inl List.mem_cons_self)))
    · exact mem_finished_of_seen done (met u (seen_iff.mpr (.inr before)))

theorem Invariant.visits : ∀ {nodes : List String} {s : Search}, s.Invariant g → s.trail = [] →
    (nodes.foldl (Search.visit g) s).Invariant g ∧ (nodes.foldl (Search.visit g) s).trail = [] ∧
      (∀ u ∈ nodes, u ∈ (nodes.foldl (Search.visit g) s).finished) ∧
      s.finished ⊆ (nodes.foldl (Search.visit g) s).finished
  | [], s, h, idle => ⟨h, idle, by simp, List.Subset.refl _⟩
  | node :: nodes, s, h, idle => by
    obtain ⟨kept, done, here, before⟩ := h.visit idle node
    obtain ⟨kept, done, there, after⟩ := @Invariant.visits nodes _ kept done
    refine ⟨kept, done, fun u mem => ?_, List.Subset.trans before after⟩
    rcases List.mem_cons.mp mem with rfl | mem
    · exact after here
    · exact there u mem

theorem invariant_start (g : Graph) : Invariant g ⟨[], [], [], []⟩ where
  nodup := List.nodup_nil
  linked := .nil
  pending := by simp
  followed := trivial
  settled := trivial
  real := by simp

end Search

/-! ## The search of a graph -/

/-- The search of a graph keeps the invariant and finishes every node. -/
theorem search_spec (g : Graph) :
    g.search.Invariant g ∧ ∀ u ∈ g.nodes, u ∈ g.search.finished := by
  obtain ⟨kept, -, all, -⟩ := @Search.Invariant.visits g g.nodes _ (Search.invariant_start g) rfl
  exact ⟨kept, all⟩

end Infra.Graph
