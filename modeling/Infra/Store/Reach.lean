import Infra.Store.Basic

/-!
# Values within reach of an entity

The values that the properties of an entity lead to: into containers and into the properties of
property entities, never into a resource. Each container is entered once, at its first place in
depth-first order; everything else shows at each of its places.

* `Store.contents` : the steps that lead on from a value;
* `Store.reachFrom` : the places reached from some places, given the containers entered before;
* `Store.reach` : the places within reach of an entity, which counts as entered itself.

The walk ends because each move enters a container for the first time or drops a place
(`Store.unentered_lt`).
-/

namespace Infra

/-- A step from a container to a value in it. -/
inductive Step
  | key (v : Value)
  | index (n : Nat)
  deriving DecidableEq, Repr

/-- A value with the steps that lead to it, outermost first. -/
structure Place where
  steps : List Step
  value : Value
  deriving DecidableEq, Repr

namespace Store

variable (s : Store)

/-- The entries of a mapping as steps. -/
def entrySteps (entries : List (Value × Value)) : List Place :=
  entries.map fun entry => ⟨[.key entry.1], entry.2⟩

/-- The items of a sequence as steps. -/
def itemSteps (items : List Value) : List Place :=
  items.zipIdx.map fun item => ⟨[.index item.2], item.1⟩

/-- The steps that lead on from a value. -/
def contents : Value → List Place
  | .sequence id => itemSteps (s.sequence id).items
  | .mapping id => entrySteps (s.mapping id)
  | .entity id =>
    match (s.entity id).kind with
    | .property => entrySteps (s.props id)
    | .resource => []
  | _ => []

/-- Everything that steps can lead on from. -/
def containers : List Value :=
  (List.range s.sequences.size).map .sequence ++ (List.range s.mappings.size).map .mapping
    ++ (List.range s.entities.size).map .entity

/-- The containers that have not been entered. -/
def unentered (entered : List Value) : Nat :=
  s.containers.countP fun v => !entered.contains v

/-- The steps from a place to what it holds. -/
def Place.extend (p : Place) (q : Place) : Place := ⟨p.steps ++ q.steps, q.value⟩

theorem get_eq_default {α : Type} [Inhabited α] {t : Table α} {i : Nat} (h : t.size ≤ i) :
    t.get i = default := by
  unfold Table.size at h
  simp [Table.get, h]

/-- Steps lead on from the containers of the store alone. -/
theorem mem_containers_of_contents {v : Value} (h : s.contents v ≠ []) : v ∈ s.containers := by
  unfold containers
  simp only [List.mem_append, List.mem_map, List.mem_range]
  match v with
  | .sequence id =>
    by_cases lt : id < s.sequences.size
    · exact .inl (.inl ⟨id, lt, rfl⟩)
    · refine absurd ?_ h
      simp only [contents, sequence]
      rw [get_eq_default (Nat.le_of_not_lt lt)]
      rfl
  | .mapping id =>
    by_cases lt : id < s.mappings.size
    · exact .inl (.inr ⟨id, lt, rfl⟩)
    · refine absurd ?_ h
      simp only [contents, mapping]
      rw [get_eq_default (Nat.le_of_not_lt lt)]
      rfl
  | .entity id =>
    by_cases lt : id < s.entities.size
    · exact .inr ⟨id, lt, rfl⟩
    · refine absurd ?_ h
      simp only [contents, entity]
      rw [get_eq_default (Nat.le_of_not_lt lt)]
      rfl
  | .null | .bool _ | .int _ | .float _ | .text _ | .bytes _ | .path _ | .moment _ | .module
  | .function | .reference _ | .output _ | .intrinsic _ | .constructor _ | .definition _
  | .composite _ => exact absurd rfl h

/-- Entering a container for the first time leaves fewer to enter. -/
theorem unentered_lt {entered : List Value} {v : Value} (h : s.contents v ≠ [])
    (new : entered.contains v = false) : s.unentered (v :: entered) < s.unentered entered := by
  have mem := s.mem_containers_of_contents h
  unfold unentered
  generalize s.containers = all at mem
  induction all with
  | nil => cases mem
  | cons head tail ih =>
    have mono : tail.countP (fun w => !(v :: entered).contains w) ≤
        tail.countP fun w => !entered.contains w := by
      apply List.countP_mono_left
      intro w _
      simp
    rw [List.countP_cons, List.countP_cons]
    rcases List.mem_cons.mp mem with rfl | later
    · simp only [List.contains_cons, beq_self_eq_true, Bool.true_or, new]
      simp only [List.contains_cons] at mono
      simp
      simp at mono
      omega
    · have := ih later
      by_cases eq : head = v
      · subst eq
        simp only [List.contains_cons, beq_self_eq_true, Bool.true_or, new]
        simp only [List.contains_cons] at mono
        simp
        simp at mono
        omega
      · simp only [List.contains_cons] at this ⊢
        simp [eq] at this ⊢
        omega

/-- The places reached from some places, in depth-first order. -/
def reachFrom (entered : List Value) : List Place → List Place
  | [] => []
  | p :: rest =>
    if _leaf : s.contents p.value = [] then p :: reachFrom entered rest
    else if _again : entered.contains p.value then reachFrom entered rest
    else p :: reachFrom (p.value :: entered) ((s.contents p.value).map (Place.extend p) ++ rest)
termination_by places => (s.unentered entered, places.length)
decreasing_by
  · exact Prod.Lex.right _ (by simp)
  · exact Prod.Lex.right _ (by simp)
  · exact Prod.Lex.left _ _ (s.unentered_lt _leaf (by simpa using _again))

/-- The places within reach of the properties of an entity. -/
def reach (id : Nat) : List Place := s.reachFrom [.entity id] (entrySteps (s.props id))

end Store
end Infra
