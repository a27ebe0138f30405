import Infra.Proofs.Graph.Search
import Mathlib.Data.String.Basic

/-!
# The order in which neighbours are listed

The search takes neighbours in ascending order, so their order in the graph does not matter. One that
is listed again comes up when its edge has been followed: then it closes a cycle that is found
already, or leads to a finished node or out of the graph. So the search of a graph does what the
search of the graph without repetitions does, with idle moves in between.

* `Thinned spent l m` : `m` is `l` without some members that are spent or stand in `l` before;
  `thinned_of_sorted` : in ascending order repetitions are such members;
* `Idle g found finished above path v` : nothing comes of an edge from the first node of `path` to
  `v`; `Shadows` : two trails through the same nodes, whose pending neighbours differ in idle ones;
* `Search.Shadow.move` : a move is idle or made by both searches; `Search.Shadow.run` : so the
  searches end alike;
* `distinct g` : the graph without repetitions; `Thins.cycles_eq` : it has the same cycles;
* `cycles_eq_of_listed_iff` : the cycles depend on the sets of neighbours only.
-/

namespace Infra.Graph

/-! ## Lists without repetitions -/

/-- The second list is the first without some members that are spent or stood in it before. -/
inductive Thinned : (String → Prop) → List String → List String → Prop
  | nil {spent} : Thinned spent [] []
  | keep {spent v l m} : Thinned (fun w => w = v ∨ spent w) l m → Thinned spent (v :: l) (v :: m)
  | drop {spent v l m} : spent v → Thinned spent l m → Thinned spent (v :: l) m

theorem Thinned.mono {p q : String → Prop} {l m : List String} (h : Thinned p l m)
    (imp : ∀ v, p v → q v) : Thinned q l m := by
  induction h generalizing q with
  | nil => exact .nil
  | keep _ ih => exact .keep (ih fun w either => either.imp_right (imp w))
  | drop spent _ ih => exact .drop (imp _ spent) (ih imp)

/-- Names in ascending order can be thinned to the same names in strict order. -/
theorem thinned_of_sorted {spent : String → Prop} {l m : List String} (sorted : l.Pairwise (· ≤ ·))
    (strict : m.Pairwise (· < ·)) (sub : ∀ v ∈ m, v ∈ l) (rest : ∀ v ∈ l, v ∈ m ∨ spent v) :
    Thinned spent l m := by
  induction l generalizing m spent with
  | nil =>
    obtain rfl : m = [] := List.eq_nil_iff_forall_not_mem.mpr fun v mem => by cases sub v mem
    exact .nil
  | cons v l ih =>
    obtain ⟨least, sorted⟩ := List.pairwise_cons.mp sorted
    by_cases mem : v ∈ m
    · -- The smallest name of all is also the first of `m`.
      obtain ⟨first, m, rfl⟩ := List.exists_cons_of_ne_nil (List.ne_nil_of_mem mem)
      obtain ⟨above, strict'⟩ := List.pairwise_cons.mp strict
      obtain rfl : v = first := by
        refine (List.mem_cons.mp mem).resolve_right fun later => ?_
        rcases List.mem_cons.mp (sub first List.mem_cons_self) with eq | inside
        · exact (above v later).ne eq
        · exact not_le.mpr (above v later) (least first inside)
      refine .keep (ih sorted strict' (fun w later => ?_) fun w inside => ?_)
      · refine (List.mem_cons.mp (sub w (List.mem_cons_of_mem v later))).resolve_left fun eq => ?_
        exact (above w later).ne' eq
      · rcases rest w (List.mem_cons_of_mem v inside) with kept | spent
        · rcases List.mem_cons.mp kept with eq | later
          · exact .inr (.inl eq)
          · exact .inl later
        · exact .inr (.inr spent)
    · refine .drop ((rest v List.mem_cons_self).resolve_left mem) ?_
      refine ih sorted strict (fun w kept => ?_) fun w inside => rest w (List.mem_cons_of_mem v inside)
      exact (List.mem_cons.mp (sub w kept)).resolve_left fun eq => mem (eq ▸ kept)

/-! ## Idle edges -/

/-- Nothing comes of an edge from the first node of the path to `v`: it closes a cycle that is found,
or leads off the path, to a node that is finished or entered from there, or out of the graph. -/
def Idle (g : Graph) (found : List (List String)) (finished : List String) (above : Option String)
    (path : List String) (v : String) : Prop :=
  (v ∈ path ∧ canonical (v :: (path.takeWhile (· != v)).reverse) ∈ found) ∨
    (v ∉ path ∧ (above = some v ∨ v ∈ finished ∨ v ∉ g.nodes))

/-- Two trails below the node `above` go through the same nodes, and the neighbours that are pending
in the first one alone are idle. -/
inductive Shadows (g : Graph) (found : List (List String)) (finished : List String) :
    Option String → List Frame → List Frame → Prop
  | nil {above} : Shadows g found finished above [] []
  | cons {above node pending thin rest rest'}
    (thinned : Thinned (Idle g found finished above (node :: rest.map (·.node))) pending thin)
    (below : Shadows g found finished (some node) rest rest') :
    Shadows g found finished above (⟨node, pending⟩ :: rest) (⟨node, thin⟩ :: rest')

variable {g d : Graph} {found : List (List String)} {finished : List String}
  {above : Option String} {trail trail' : List Frame} {path : List String} {v : String}

theorem Idle.mono {found' : List (List String)} (sub : found ⊆ found')
    (h : Idle g found finished above path v) : Idle g found' finished above path v :=
  h.imp_left (.imp_right (@sub _))

theorem Idle.finish (node : String) (h : Idle g found finished above path v) :
    Idle g found (node :: finished) above path v :=
  h.imp_right (.imp_right (.imp_right (.imp_left (List.mem_cons_of_mem node))))

theorem Idle.leave {node : String} (h : Idle g found finished (some node) path v) :
    Idle g found (node :: finished) none path v := by
  refine (h.finish node).imp_right (.imp_right fun known => .inr ?_)
  rcases known with entered | known
  · cases entered
    exact .inl List.mem_cons_self
  · exact known

theorem Idle.enter (h : Idle g found finished none path v) :
    Idle g found finished above path v := by
  refine h.imp_right (.imp_right fun known => .inr (known.resolve_left ?_))
  simp

theorem Shadows.path_eq (h : Shadows g found finished above trail trail') :
    trail'.map (·.node) = trail.map (·.node) := by
  induction h with
  | nil => rfl
  | cons _ _ ih => rw [List.map_cons, List.map_cons, ih]

theorem Shadows.mono {found' : List (List String)} (sub : found ⊆ found')
    (h : Shadows g found finished above trail trail') :
    Shadows g found' finished above trail trail' := by
  induction h with
  | nil => exact .nil
  | cons thinned _ ih => exact .cons (thinned.mono fun _ idle => idle.mono sub) ih

theorem Shadows.finish (node : String) (h : Shadows g found finished above trail trail') :
    Shadows g found (node :: finished) above trail trail' := by
  induction h with
  | nil => exact .nil
  | cons thinned _ ih => exact .cons (thinned.mono fun _ idle => idle.finish node) ih

theorem Shadows.leave {node : String} (h : Shadows g found finished (some node) trail trail') :
    Shadows g found (node :: finished) none trail trail' := by
  cases h with
  | nil => exact .nil
  | cons thinned below => exact .cons (thinned.mono fun _ idle => idle.leave) (below.finish node)

/-- The second graph has the nodes of the first and lists the neighbours of each without
repetitions. -/
structure Thins (g d : Graph) : Prop where
  nodes : d.nodes = g.nodes
  neighbours : ∀ u, Thinned (fun _ => False) (g.neighbours u) (d.neighbours u)

theorem Thins.shadows_cons (thins : Thins g d) (node : String)
    (below : Shadows g found finished (some node) trail trail') :
    Shadows g found finished none (⟨node, g.neighbours node⟩ :: trail)
      (⟨node, d.neighbours node⟩ :: trail') :=
  .cons ((thins.neighbours node).mono fun _ none => none.elim) below

namespace Search

/-- The second search is where the first one is, but for pending neighbours that are idle. -/
inductive Shadow (g : Graph) : Search → Search → Prop
  | intro {trail trail' parents finished found}
    (shadows : Shadows g found finished none trail trail') :
    Shadow g ⟨trail, parents, finished, found⟩ ⟨trail', parents, finished, found⟩

variable {s t : Search}

theorem Shadow.path_eq (h : Shadow g s t) : t.path = s.path := by
  obtain ⟨shadows⟩ := h
  exact shadows.path_eq

theorem Shadow.finished_eq (h : Shadow g s t) : t.finished = s.finished := by
  obtain ⟨-⟩ := h
  rfl

theorem Shadow.found_eq (h : Shadow g s t) : t.found = s.found := by
  obtain ⟨-⟩ := h
  rfl

theorem Shadow.trail_eq_nil_iff (h : Shadow g s t) : t.trail = [] ↔ s.trail = [] := by
  have same := h.path_eq
  rw [← List.map_eq_nil_iff, ← List.map_eq_nil_iff (l := s.trail)]
  exact ⟨fun none => same.symm.trans none, fun none => same.trans none⟩

section Moves

variable {node next : String} {pending thin : List String} {rest rest' : List Frame}
  {parents : List (String × String)} {s' : Search}

/-- A search that follows an idle edge is then where it was. -/
theorem Move.eq_of_idle
    (move : Move g ⟨⟨node, next :: pending⟩ :: rest, parents, finished, found⟩ s')
    (kept : Invariant g ⟨⟨node, next :: pending⟩ :: rest, parents, finished, found⟩)
    (idle : Idle g found finished none (node :: rest.map (·.node)) next) :
    s' = ⟨⟨node, pending⟩ :: rest, parents, finished, found⟩ := by
  cases move with
  | close onTrail closes =>
    obtain rfl := kept.cycle_eq rfl onTrail closes
    have known := (idle.resolve_right fun off => off.1 onTrail).2
    exact congrArg (Search.mk _ _ _) (withCycle_of_mem known)
  | stray => rfl
  | skip => rfl
  | descend offTrail unfinished inside =>
    have known := (idle.resolve_left fun on => offTrail on.1).2
    rcases known with entered | done | outside
    · cases entered
    · exact absurd done unfinished
    · exact absurd inside outside

/-- What both searches have followed is idle afterwards, so the trails go on alike. -/
theorem shadows_followed {found' : List (List String)} (sub : found ⊆ found')
    (thinned : Thinned (fun w => w = next ∨ Idle g found finished none (node :: rest.map (·.node)) w)
      pending thin)
    (below : Shadows g found finished (some node) rest rest')
    (idle : Idle g found' finished above (node :: rest.map (·.node)) next) :
    Shadows g found' finished above (⟨node, pending⟩ :: rest) (⟨node, thin⟩ :: rest') := by
  refine .cons (thinned.mono fun w either => ?_) (below.mono sub)
  rcases either with rfl | before
  · exact idle
  · exact (before.mono sub).enter

/-- Two searches that follow the same edge make the same move. -/
theorem Shadow.follow (thins : Thins g d)
    (kept : Invariant g ⟨⟨node, next :: pending⟩ :: rest, parents, finished, found⟩)
    (thinned : Thinned (fun w => w = next ∨ Idle g found finished none (node :: rest.map (·.node)) w)
      pending thin)
    (below : Shadows g found finished (some node) rest rest')
    (move : Move g ⟨⟨node, next :: pending⟩ :: rest, parents, finished, found⟩ s') :
    ∃ t', Move d ⟨⟨node, next :: thin⟩ :: rest', parents, finished, found⟩ t' ∧ Shadow g s' t' := by
  have path := below.path_eq
  have same := List.Subset.refl found
  cases move with
  | close onTrail closes =>
    refine ⟨_, .close (path ▸ onTrail) closes, ⟨?_⟩⟩
    obtain rfl := kept.cycle_eq rfl onTrail closes
    exact shadows_followed (subset_withCycle found _) thinned below
      (.inl ⟨onTrail, mem_withCycle.mpr (.inr rfl)⟩)
  | stray onTrail strays =>
    have arrives := (kept.closedBy?_eq rfl onTrail).symm.trans strays
    cases arrives
  | skip offTrail known =>
    refine ⟨_, .skip (path ▸ offTrail) (thins.nodes ▸ known), ⟨?_⟩⟩
    exact shadows_followed same thinned below (.inr ⟨offTrail, .inr known⟩)
  | descend offTrail unfinished inside =>
    refine ⟨_, .descend (path ▸ offTrail) unfinished (thins.nodes ▸ inside), ⟨?_⟩⟩
    apply thins.shadows_cons
    exact shadows_followed same thinned below (.inr ⟨offTrail, .inl rfl⟩)

end Moves

/-- One move of a search: the other one makes such a move too, or the move is idle. -/
theorem Shadow.move {s' : Search} (thins : Thins g d) (h : Shadow g s t) (kept : s.Invariant g)
    (move : Move g s s') : Shadow g s' t ∨ ∃ t', Move d t t' ∧ Shadow g s' t' := by
  obtain ⟨shadows⟩ := h
  cases shadows with
  | nil => cases move
  | cons thinned below =>
    cases thinned with
    | nil =>
      cases move
      exact .inr ⟨_, .leave, ⟨below.leave⟩⟩
    | keep thinned => exact .inr (Shadow.follow thins kept thinned below move)
    | drop idle thinned =>
      obtain rfl := move.eq_of_idle kept idle
      exact .inl ⟨.cons thinned below⟩

/-- Searches that run to their ends come there alike. -/
theorem Shadow.run (thins : Thins g d) (h : Shadow g s t) (kept : s.Invariant g) :
    Shadow g (s.run g) (t.run d) := by
  induction s using Search.run.induct (g := g) generalizing t with
  | case1 s done =>
    rw [Search.run, dif_pos done, Search.run, dif_pos (h.trail_eq_nil_iff.mpr done)]
    exact h
  | case2 s busy ih =>
    have move := move_step (g := g) busy
    rw [Search.run, dif_neg busy]
    rcases h.move thins kept move with idle | ⟨t', move', both⟩
    · exact ih idle (kept.move move)
    · rw [Search.run.eq_1 d t, dif_neg (mt h.trail_eq_nil_iff.mp busy), move'.step_eq]
      exact ih both (kept.move move)

theorem Shadow.visit (thins : Thins g d) (h : Shadow g s t) (kept : s.Invariant g)
    (idle : s.trail = []) (node : String) : Shadow g (s.visit g node) (t.visit d node) := by
  have seen : t.seen node = s.seen node := by rw [seen, seen, h.path_eq, h.finished_eq]
  unfold Search.visit
  rw [seen]
  split
  · exact h
  · next new =>
    have entered := kept.enter idle fun done => new (seen_iff.mpr (.inr done))
    refine Shadow.run thins ?_ entered
    obtain ⟨shadows⟩ := h
    cases shadows with
    | nil => exact ⟨thins.shadows_cons node .nil⟩
    | cons => cases idle

theorem Shadow.visits (thins : Thins g d) (nodes : List String) (h : Shadow g s t)
    (kept : s.Invariant g) (idle : s.trail = []) :
    Shadow g (nodes.foldl (Search.visit g) s) (nodes.foldl (Search.visit d) t) := by
  induction nodes generalizing s t with
  | nil => exact h
  | cons node nodes ih =>
    obtain ⟨visited, done, -⟩ := kept.visit idle node
    exact ih (h.visit thins kept idle node) visited done

end Search

/-! ## The cycles -/

theorem Thins.cycles_eq (thins : Thins g d) : d.cycles = g.cycles := by
  have begun : Search.Shadow g ⟨[], [], [], []⟩ ⟨[], [], [], []⟩ := ⟨.nil⟩
  have ended : Search.Shadow g g.search d.search := by
    unfold search
    rw [thins.nodes]
    exact begun.visits thins g.nodes (Search.invariant_start g) rfl
  exact ended.found_eq

/-- The graph in which no neighbour is listed again. -/
def distinct (g : Graph) : Graph := g.map fun entry => (entry.1, Text.dedupe entry.2)

theorem nodes_distinct (g : Graph) : (distinct g).nodes = g.nodes := by
  simp [distinct, nodes]

theorem listed_distinct (g : Graph) (u : String) :
    (distinct g).listed u = Text.dedupe (g.listed u) := by
  unfold listed distinct
  induction g with
  | nil => rfl
  | cons entry rest ih =>
    rw [List.map_cons, List.lookup_cons, List.lookup_cons]
    cases u == entry.1 with
    | true => rfl
    | false => exact ih

theorem thins_distinct {h : Graph} (nodes : g.nodes = h.nodes)
    (edges : ∀ u v, g.Edge u v ↔ h.Edge u v) : Thins g (distinct h) := by
  refine ⟨(nodes_distinct h).trans nodes.symm, fun u => ?_⟩
  have same : ∀ v, v ∈ (distinct h).neighbours u ↔ v ∈ g.neighbours u := by
    intro v
    rw [mem_neighbours, mem_neighbours, edges, Edge, listed_distinct, Text.mem_dedupe, Edge]
  have strict : ((distinct h).neighbours u).Pairwise (· < ·) := by
    rw [neighbours, listed_distinct]
    exact Text.pairwise_lt_sorted_dedupe _
  exact thinned_of_sorted (Text.pairwise_sorted _) strict (fun v => (same v).mp)
    fun v mem => .inl ((same v).mpr mem)

/-- Graphs with the same nodes in the same order, each with the same set of neighbours, have the same
cycles in the same order, however the neighbours are listed. -/
theorem cycles_eq_of_listed_iff {g h : Graph} (nodes : g.nodes = h.nodes)
    (same : ∀ u ∈ g.nodes, ∀ v, v ∈ g.listed u ↔ v ∈ h.listed u) : g.cycles = h.cycles := by
  have edges : ∀ u v, g.Edge u v ↔ h.Edge u v := by
    intro u v
    constructor
    · intro edge
      exact (same u edge.mem_nodes v).mp edge
    · intro edge
      exact (same u (nodes ▸ edge.mem_nodes) v).mpr edge
  calc g.cycles = (distinct h).cycles := (thins_distinct nodes edges).cycles_eq.symm
    _ = h.cycles := (thins_distinct rfl fun _ _ => .rfl).cycles_eq

/-- Two lists of the neighbours of each node, with repetitions and in different orders. -/
theorem cycles_eq_of_listed_iff_ring :
    let g : Graph := [("a", ["b", "a"]), ("b", ["c"]), ("c", ["a"])]
    let h : Graph := [("a", ["a", "b", "b"]), ("b", ["c", "c"]), ("c", ["a"])]
    g.nodes = h.nodes ∧ (∀ u ∈ g.nodes, ∀ v, v ∈ g.listed u ↔ v ∈ h.listed u) ∧
      g.cycles = h.cycles := by
  intro g h
  have same : ∀ u ∈ g.nodes, ∀ v, v ∈ g.listed u ↔ v ∈ h.listed u := by
    simpa [g, h, nodes, listed, List.lookup_cons] using fun v => or_comm
  exact ⟨rfl, same, cycles_eq_of_listed_iff rfl same⟩

end Infra.Graph
