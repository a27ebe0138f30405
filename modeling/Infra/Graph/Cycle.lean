import Infra.Graph.Basic
import Infra.Value

/-!
# Cycles of a graph

A depth-first search that reports each cycle it closes once. The search keeps the trail of nodes
that it is inside of, innermost first, each with the neighbours that it has still to follow, and
the node that each node was entered from. An edge to a node of the trail closes a cycle, which is
read off by walking back to that node.

* `rotateTo`, `canonical` : a cycle begins at its smallest member;
* `walkBack` : the way back along the nodes that nodes were entered from;
* `Search.step` : one move of the search, `Search.run` : all of them;
* `cycles` : the cycles found from every node in turn.

The search ends because each move either visits a node for the first time or uses up a pending
edge or a place of the trail (`Search.measure_step`).
-/

namespace Infra.Graph

/-! ## Canonical form -/

/-- The smallest of some names, where one more is known. -/
def smallest (name : String) (names : List String) : String :=
  names.foldl (fun least other => if other < least then other else least) name

/-- The list turned so that it begins with `start`. -/
def rotateTo (start : String) (names : List String) : List String :=
  names.dropWhile (· != start) ++ names.takeWhile (· != start)

/-- The members of a cycle, listed from its smallest member on. -/
def canonical : List String → List String
  | [] => []
  | name :: names => rotateTo (smallest name names) (name :: names)

/-- The canonical form of a closed walk, whose last member repeats the first. -/
def canonicalOfClosed (walk : List String) : List String := canonical walk.dropLast

/-! ## The search -/

/-- Taking out a key that is there leaves fewer entries. -/
theorem length_erase_lt {entries : List (String × String)} {name value : String}
    (known : entries.lookup name = some value) :
    (Named.erase entries name).length < entries.length := by
  unfold Named.erase
  induction entries with
  | nil => cases known
  | cons entry rest ih =>
    obtain ⟨key, held⟩ := entry
    by_cases eq : name = key
    · have := List.length_filter_le (fun entry : String × String => entry.1 != name) rest
      simp [eq] at this ⊢
      omega
    · rw [List.lookup_cons, beq_eq_false_iff_ne.mpr eq] at known
      rw [List.filter_cons_of_pos (by simpa using Ne.symm eq)]
      simpa using ih known

/-- A node of the trail with the neighbours that the search has still to follow from it. -/
structure Frame where
  node : String
  pending : List String
  deriving DecidableEq, Repr

/-- The nodes from `node` back to `target`, which is left out, by the parents of nodes. A walk that
meets a node without a parent, or one that it has left before, does not arrive. -/
def walkBack (parents : List (String × String)) (target node : String) : Option (List String) :=
  if node = target then some []
  else
    match _known : parents.lookup node with
    | none => none
    | some parent => (walkBack (Named.erase parents node) target parent).map (node :: ·)
termination_by parents.length
decreasing_by exact length_erase_lt _known

/-- The state of a search: the trail, innermost first, the node that each node was entered from,
the nodes left behind and the cycles found so far. -/
structure Search where
  trail : List Frame
  parents : List (String × String)
  finished : List String
  found : List (List String)
  deriving DecidableEq, Repr

namespace Search

/-- The nodes of the trail, innermost first. -/
def path (s : Search) : List String := s.trail.map (·.node)

/-- Whether the search has met the node. -/
def seen (s : Search) (node : String) : Bool := s.path.contains node || s.finished.contains node

/-- The members of the cycle that an edge from `node` back to `next` closes. -/
def closedBy? (s : Search) (node next : String) : Option (List String) :=
  (walkBack s.parents next node).map fun back => next :: back.reverse

/-- Adds a cycle to those found, unless it is among them. -/
def report (s : Search) (cycle : List String) : Search :=
  if s.found.contains cycle then s else { s with found := s.found ++ [cycle] }

/-- Starts at a node that the search has not met. -/
def enter (g : Graph) (s : Search) (node : String) : Search :=
  { s with trail := ⟨node, g.neighbours node⟩ :: s.trail }

/-- Goes on from a node to one that the search has not met. -/
def descend (g : Graph) (s : Search) (node next : String) : Search :=
  { s.enter g next with parents := (next, node) :: s.parents }

/-- Follows the next pending edge of the innermost node, or leaves that node. -/
def step (g : Graph) (s : Search) : Search :=
  match s.trail with
  | [] => s
  | ⟨node, []⟩ :: rest => { s with trail := rest, finished := node :: s.finished }
  | ⟨node, next :: pending⟩ :: rest =>
    let s := { s with trail := ⟨node, pending⟩ :: rest }
    if s.path.contains next then
      match s.closedBy? node next with
      | some cycle => s.report (canonical cycle)
      | none => s
    else if s.finished.contains next || !g.nodes.contains next then s
    else s.descend g node next

/-! ## The search ends -/

/-- The number of nodes that the search has not met. -/
def unseen (g : Graph) (s : Search) : Nat := g.nodes.countP fun node => !s.seen node

/-- The edges still pending on the trail, and one more for each of its places. -/
def load (s : Search) : Nat := s.trail.foldr (fun f n => f.pending.length + 1 + n) 0

theorem unseen_report (g : Graph) (s : Search) (cycle : List String) :
    (s.report cycle).unseen g = s.unseen g := by
  unfold report
  split <;> rfl

theorem load_report (s : Search) (cycle : List String) : (s.report cycle).load = s.load := by
  unfold report
  split <;> rfl

/-- Fewer members pass a test that is stronger, and strictly so for one member. -/
theorem countP_lt_countP {p q : String → Bool} {names : List String} {name : String}
    (weaker : ∀ m, p m → q m) (mem : name ∈ names) (fails : p name = false)
    (holds : q name = true) : names.countP p < names.countP q := by
  induction names with
  | nil => cases mem
  | cons head tail ih =>
    have mono : tail.countP p ≤ tail.countP q := List.countP_mono_left fun m _ => weaker m
    rw [List.countP_cons, List.countP_cons]
    rcases List.mem_cons.mp mem with rfl | later
    · simp [fails, holds]
      omega
    · have := ih later
      by_cases h : p head = true
      · simp [h, weaker head h]
        omega
      · simp [h]
        omega

/-- Entering a node leaves fewer nodes to meet. -/
theorem unseen_descend_lt {g : Graph} {s : Search} {node next : String}
    (mem : next ∈ g.nodes) (new : s.seen next = false) :
    (s.descend g node next).unseen g < s.unseen g := by
  apply countP_lt_countP _ mem
  · simp [descend, enter, seen, path]
  · simp [new]
  · intro m
    simp only [descend, enter, seen, path, List.map_cons, List.contains_cons]
    intro h
    by_cases eq : m = next
    · simp [eq] at h
    · simpa [eq] using h

/-- A move on a trail that is not empty makes progress. -/
theorem measure_step (g : Graph) {s : Search} (h : s.trail ≠ []) :
    (s.step g).unseen g < s.unseen g ∨
      (s.step g).unseen g = s.unseen g ∧ (s.step g).load < s.load := by
  obtain ⟨trail, parents, finished, found⟩ := s
  match trail with
  | [] => exact absurd rfl h
  | ⟨node, []⟩ :: rest =>
    right
    constructor
    · unfold unseen
      congr 1
      funext m
      simp only [step, seen, path, List.map_cons, List.contains_cons]
      cases m == node <;> simp
    · simp [step, load]
  | ⟨node, next :: pending⟩ :: rest =>
    have fewer : load ⟨⟨node, pending⟩ :: rest, parents, finished, found⟩ <
        load ⟨⟨node, next :: pending⟩ :: rest, parents, finished, found⟩ := by
      simp [load]
    unfold step
    dsimp only
    split
    · right
      split
      · rw [unseen_report, load_report]
        exact ⟨rfl, fewer⟩
      · exact ⟨rfl, fewer⟩
    · split
      · exact .inr ⟨rfl, fewer⟩
      · rename_i offTrail new
        left
        apply unseen_descend_lt
        · simp at new
          exact new.2
        · simp_all [seen]

/-- Makes moves until the trail is empty. -/
def run (g : Graph) (s : Search) : Search :=
  if _h : s.trail = [] then s else run g (s.step g)
termination_by (s.unseen g, s.load)
decreasing_by
  rcases measure_step g _h with fewer | ⟨same, fewer⟩
  · exact Prod.Lex.left _ _ fewer
  · rw [same]
    exact Prod.Lex.right _ fewer

/-- Searches from a node, unless the search has met it. -/
def visit (g : Graph) (s : Search) (node : String) : Search :=
  if s.seen node then s else (s.enter g node).run g

end Search

/-! ## The cycles -/

/-- The search from the nodes in order. -/
def search (g : Graph) : Search := g.nodes.foldl (Search.visit g) ⟨[], [], [], []⟩

/-- The cycles that depth-first search finds, each in canonical form and listed once. -/
def cycles (g : Graph) : List (List String) := g.search.found

end Infra.Graph
