import Infra.Proofs.Discovery.Dependency
import Infra.Proofs.Discovery.Naming
import Mathlib.Data.List.Permutation

/-!
# Arenas that are given

A resolution and a graph may be given an arena other than that of the namespace. It decides what is
dangling, how references are named, and which names are dependencies, unless it is empty: then the
arena of the namespace stands in for it.

* `Arena.orOfNamespace_some` : the arena that counts;
* `Arena.nameOf?_none_iff` : an arena does not know the handles that none of its entities has;
* `Store.mem_listed_iff` : the edges of the graph under any arena;
* `Store.given_spec` : what a resolution and a graph make of an arena that is given;
  `Store.empty_arena_stood_in` : an empty one is not used.
-/

namespace Infra

open Store (handle)

namespace Arena

theorem orOfNamespace_some (a : Arena) (n : Namespace) :
    orOfNamespace (some a) n = if a.entries = [] then ofNamespace n else a := by
  unfold orOfNamespace
  simp only [List.isEmpty_iff]

theorem nameOf?_none_iff {a : Arena} {h : Int} :
    a.nameOf? h = none ↔ ∀ entry ∈ a.entries, handle entry.2 ≠ h := by
  unfold nameOf? entry?
  rw [Option.map_eq_none_iff, List.find?_eq_none]
  simp

end Arena

namespace Store

variable {s : Store}

/-- Under the name of an entity the graph lists the resources that the arena knows for the values
that the entity reaches. -/
theorem mem_listed_iff {n : Namespace} (names : (n.map (·.1)).Nodup) (given : Option Arena)
    {name t : String} :
    t ∈ (s.dependencyGraph n given).result.listed name ↔
      ∃ id v e, (name, .entity id) ∈ n ∧ s.Reaches id v ∧ s.dependencyOf? id v = some (handle e) ∧
        Arena.entry? (Arena.orOfNamespace given n) (handle e) = some (t, e) ∧
        (s.entity e).kind = .resource := by
  constructor
  · intro mem
    obtain ⟨id, inside⟩ := exists_of_mem_listed mem
    rw [listed_dependencyGraph names given inside, mem_dependencies] at mem
    obtain ⟨v, reaches, h, dep, known⟩ := mem
    obtain ⟨e, found, kind⟩ := resourceName?_eq_some_iff.mp known
    have same : handle e = h := by simpa using List.find?_some found
    subst same
    exact ⟨id, v, e, inside, reaches, dep, found, kind⟩
  · rintro ⟨id, v, e, inside, reaches, dep, found, kind⟩
    rw [listed_dependencyGraph names given inside, mem_dependencies]
    exact ⟨v, reaches, _, dep, resourceName?_eq_some_iff.mpr ⟨e, found, kind⟩⟩

/-- The entity has the reference as an accessor or reaches it. -/
def Holds (s : Store) (id ref : Nat) : Prop :=
  (∃ accessor, (accessor, ref) ∈ (s.entity id).accessors) ∨ s.Reaches id (.reference ref)

/-- A resolution ends with a dangling reference exactly when an entity of the namespace holds a
reference whose parent the arena does not know; else each reference that is held has the name of
its parent in the arena. The graph has an edge to a name exactly when the arena has it for a
resource, which one of the values that the entity reaches leads to. The arena is the one that is
given, or that of the namespace where an empty one is given. -/
theorem given_spec (s : Store) (n : Namespace) (names : (n.map (·.1)).Nodup) (a : Arena) :
    let used := if a.entries = [] then Arena.ofNamespace n else a
    let outcome := (s.resolveReferences n (some a)).result
    let g := (s.dependencyGraph n (some a)).result
    ((∃ path, outcome.2 = .error (.failed (.dangling path none))) ↔
      ∃ name id ref, (name, .entity id) ∈ n ∧ s.Holds id ref ∧
        ∀ entry ∈ used.entries, handle entry.2 ≠ (s.reference ref).parent) ∧
    ((¬ ∃ path, outcome.2 = .error (.failed (.dangling path none))) →
      outcome.2 = .ok used ∧ ∀ name id ref, (name, .entity id) ∈ n → s.Holds id ref →
        ∃ known, used.nameOf? (s.reference ref).parent = some known ∧
          (outcome.1.reference ref).name = some known) ∧
    ∀ name t, t ∈ g.listed name ↔
      ∃ id v e, (name, .entity id) ∈ n ∧ s.Reaches id v ∧ s.dependencyOf? id v = some (handle e) ∧
        used.entry? (handle e) = some (t, e) ∧ (s.entity e).kind = .resource := by
  intro used outcome g
  have counts : Arena.orOfNamespace (some a) n = used := a.orOfNamespace_some n
  obtain ⟨t, r, result, -, -, resolved⟩ := resolveReferences_cases s n (some a)
  rw [counts] at resolved
  have held : ∀ {ref}, ref ∈ referencesOf (s.walk n) ↔
      ∃ name id, (name, .entity id) ∈ n ∧ s.Holds id ref := mem_referencesOf_walk
  have outcome_eq : outcome = (t, r) := result
  rw [outcome_eq]
  refine ⟨?_, ?_, fun name t => by rw [← counts]; exact mem_listed_iff names (some a)⟩
  · simp only [← Arena.nameOf?_none_iff]
    cases resolved with
    | @dangling path first =>
      obtain ⟨ref, mem, unknown⟩ := first.exists_unknown
      obtain ⟨name, id, inside, holds⟩ := held.mp mem
      exact iff_of_true ⟨path, rfl⟩ ⟨name, id, ref, inside, holds, unknown⟩
    | named known =>
      refine iff_of_false nofun ?_
      rintro ⟨name, id, ref, inside, holds, unknown⟩
      obtain ⟨other, found, -⟩ := known ref (held.mpr ⟨name, id, inside, holds⟩)
      cases unknown.symm.trans found
  · intro sound
    cases resolved with
    | @dangling path _ => exact absurd ⟨path, rfl⟩ sound
    | named known =>
      exact ⟨rfl, fun name id ref inside holds => known ref (held.mpr ⟨name, id, inside, holds⟩)⟩

/-- A queue that reads an attribute of a bucket. -/
def queueNamespace : Namespace := [("bucket", .entity 0), ("queue", .entity 1)]

/-- An arena that knows the bucket alone, and by another name. -/
def storageArena : Arena := ⟨[("storage", 0)]⟩

theorem resolve_storage :
    (queueStore.resolveReferences queueNamespace (some storageArena)).result =
      (queueStore.nameReference 0 "storage", .ok storageArena) := by
  cbv

/-- The reference to the bucket and the dependency on it have the name that the arena gives. -/
theorem given_spec_storage :
    let outcome := (queueStore.resolveReferences queueNamespace (some storageArena)).result
    (queueNamespace.map (·.1)).Nodup ∧ outcome.2 = .ok storageArena ∧
      (outcome.1.reference 0).name = some "storage" ∧
      "storage" ∈
        (queueStore.dependencyGraph queueNamespace (some storageArena)).result.listed "queue" := by
  intro outcome
  have names : (queueNamespace.map (·.1)).Nodup := by decide
  obtain ⟨-, sound, edges⟩ := given_spec queueStore queueNamespace names storageArena
  have reads : (Value.text "source", Value.reference 0) ∈ queueStore.props 1 := by decide
  have accepted : ¬ ∃ path, outcome.2 = .error (.failed (.dangling path none)) := by
    rw [show outcome = _ from resolve_storage]
    exact nofun
  obtain ⟨resolved, given⟩ := sound accepted
  obtain ⟨known, found, named⟩ := given "queue" 1 0 (by decide) (.inr (.prop reads))
  cases found
  exact ⟨names, resolved, named, (edges "queue" "storage").mpr
    ⟨1, .reference 0, 0, by decide, .prop reads, by decide, by decide, by decide⟩⟩

theorem resolve_empty_arena :
    (queueStore.resolveReferences queueNamespace (some .empty)).result =
      (queueStore.nameReference 0 "bucket", .ok (Arena.ofNamespace queueNamespace)) := by
  cbv

/-- An empty arena knows no parent of any reference. It is not used: the resolution names the
reference to the bucket all the same, and the graph has an edge to it. -/
theorem empty_arena_stood_in :
    let outcome := (queueStore.resolveReferences queueNamespace (some .empty)).result
    Arena.empty.nameOf? (queueStore.reference 0).parent = none ∧
      queueStore.Holds 1 0 ∧ outcome.2 = .ok (Arena.ofNamespace queueNamespace) ∧
      (outcome.1.reference 0).name = some "bucket" ∧
      "bucket" ∈
        (queueStore.dependencyGraph queueNamespace (some .empty)).result.listed "queue" := by
  intro outcome
  have resolved : outcome = _ := resolve_empty_arena
  have reads : (Value.text "source", Value.reference 0) ∈ queueStore.props 1 := by decide
  have names : (queueNamespace.map (·.1)).Nodup := by decide
  rw [resolved]
  refine ⟨rfl, .inr (.prop reads), rfl, rfl, (mem_listed_iff names (some .empty)).mpr ?_⟩
  exact ⟨1, .reference 0, 0, by decide, .prop reads, by decide, by decide, by decide⟩

end Store
end Infra
