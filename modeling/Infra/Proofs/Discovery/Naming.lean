import Infra.Proofs.Discovery.Resolution
import Infra.Proofs.Store.Accessors

/-!
# Names given by a resolution

* `Store.FirstDangling` : the path at which a resolution meets its first dangling reference;
* `Store.Resolved` : what a resolution comes to;
* `Store.names_of_resolve` : the names that a resolution gives when there were none;
  `Store.namedBy_of_resolve` : and there are no others;
* `Store.resolve_spec` : a resolution fails exactly when a reference within reach is dangling, and
  there; else it gives every reference within reach the name of its entity.
-/

namespace Infra
namespace Store

variable {s : Store} {arena : Arena}

theorem sameButNames_assignNames (s : Store) (n : Namespace) :
    SameButNames s (s.assignNames n) := by
  unfold assignNames
  induction n generalizing s with
  | nil => exact .refl s
  | cons entry rest ih =>
    have head : SameButNames s (assignName s entry) := by
      unfold assignName
      split
      · exact .nameEntity _ _ _
      · exact .refl _
    exact head.trans (ih _)

/-- An entity has a name after the assignment only if it had it before, or has it in the
namespace. -/
theorem name_assignNames {n : Namespace} {id : Nat} {name : String}
    (h : ((s.assignNames n).entity id).name = some name) :
    (s.entity id).name = some name ∨ (name, .entity id) ∈ n := by
  unfold assignNames at h
  induction n generalizing s with
  | nil => exact .inl h
  | cons entry rest ih =>
    rcases ih h with before | later
    · obtain ⟨given, v⟩ := entry
      cases v with
      | entity other =>
        change ((s.entities.modify other _).get id).name = _ at before
        rw [Table.get_modify] at before
        split at before
        · next same =>
          cases before
          rw [same.1]
          exact .inr List.mem_cons_self
        · exact .inl before
      | _ => exact .inl before
    · exact .inr (List.mem_cons_of_mem _ later)

/-- The path at which a resolution of the namespace meets its first dangling reference. -/
def FirstDangling (arena : Arena) (s : Store) (n : Namespace) (path : String) : Prop :=
  ∃ met v rest, s.walk n = met ++ v :: rest ∧ (∀ u ∈ met, ¬ Dangling arena s u.2.value) ∧
    Dangling arena s v.2.value ∧ Spelled arena s (met ++ [v]) v.1 v.2.steps path

theorem mem_walk {n : Namespace} {v : Visit} :
    v ∈ s.walk n ↔
      ∃ id, (v.1, .entity id) ∈ n ∧ (v.2 ∈ s.accessorSteps id ∨ v.2 ∈ s.reach id) := by
  unfold walk visitsOf
  simp only [List.mem_flatMap, List.mem_map, List.mem_append]
  constructor
  · rintro ⟨⟨name, id⟩, inside, p, mem, rfl⟩
    exact ⟨id, Namespace.mem_entities.mp inside, mem⟩
  · rintro ⟨id, inside, mem⟩
    exact ⟨(v.1, id), Namespace.mem_entities.mpr inside, v.2, mem, rfl⟩

theorem mem_referencesOf_walk {n : Namespace} {ref : Nat} :
    ref ∈ referencesOf (s.walk n) ↔
      ∃ name id, (name, .entity id) ∈ n ∧
        ((∃ accessor, (accessor, ref) ∈ (s.entity id).accessors) ∨
          s.Reaches id (.reference ref)) := by
  rw [mem_referencesOf]
  simp only [mem_walk]
  constructor
  · rintro ⟨⟨name, p⟩, ⟨id, inside, own | reached⟩, value⟩
    · obtain ⟨⟨accessor, _⟩, mem, rfl⟩ := List.mem_map.mp own
      cases value
      exact ⟨name, id, inside, .inl ⟨accessor, mem⟩⟩
    · exact ⟨name, id, inside, .inr (value ▸ reaches_of_mem_reach reached)⟩
  · rintro ⟨name, id, inside, ⟨accessor, mem⟩ | reaches⟩
    · exact ⟨(name, _), ⟨id, inside, .inl (List.mem_map_of_mem mem)⟩, rfl⟩
    · obtain ⟨p, mem, value⟩ := (reaches_iff_mem_reach rfl).mp reaches
      exact ⟨(name, p), ⟨id, inside, .inr mem⟩, value⟩

theorem FirstDangling.exists_unknown {n : Namespace} {path : String}
    (h : FirstDangling arena s n path) :
    ∃ ref ∈ referencesOf (s.walk n), arena.nameOf? (s.reference ref).parent = none := by
  obtain ⟨met, v, rest, split, -, ⟨ref, value, unknown⟩, -⟩ := h
  exact ⟨ref, mem_referencesOf.mpr ⟨v, by rw [split]; simp, value⟩, unknown⟩

/-! ## What a resolution comes to -/

/-- What a resolution of a namespace comes to: each reference of the walk has the name of its
entity, or the first dangling one is reported. -/
inductive Resolved (arena : Arena) (s : Store) (n : Namespace) (t : Store) :
    Except Fault Arena → Prop
  | named : (∀ ref ∈ referencesOf (s.walk n), ∃ name,
        arena.nameOf? (s.reference ref).parent = some name ∧ (t.reference ref).name = some name) →
      Resolved arena s n t (.ok arena)
  | dangling {path : String} : FirstDangling arena s n path →
      Resolved arena s n t (.error (.failed (.dangling path none)))

theorem resolveReferences_cases (s : Store) (n : Namespace) (given : Option Arena) :
    ∃ t r, (s.resolveReferences n given).result = (t, r) ∧ SameButNames s t ∧
      (∀ id, t.entity id = s.entity id) ∧ Resolved (Arena.orOfNamespace given n) s n t r := by
  obtain ⟨r, outcome, result⟩ := outcome_resolveReferences s n given
  refine ⟨r.1, _, result, ?_⟩
  cases outcome with
  | dangling split none found spelled =>
    exact ⟨sameButNames_named _ _ _, entity_named _,
      .dangling ⟨_, _, _, split, none, found, spelled⟩⟩
  | done sound =>
    refine ⟨sameButNames_named _ _ _, entity_named _, .named fun ref mem => ?_⟩
    cases known : (Arena.orOfNamespace given n).nameOf? (s.reference ref).parent with
    | none =>
      obtain ⟨v, onWalk, value⟩ := mem_referencesOf.mp mem
      exact absurd ⟨ref, value, known⟩ (sound v onWalk)
    | some name => exact ⟨name, rfl, name_named mem known⟩

/-- When no entity was named before, a resolution that succeeds gives each its name in the
namespace, and each reference within reach the name of its entity. -/
theorem names_of_resolve {t : Store} {n : Namespace} {arena : Arena}
    (fresh : ∀ id, (s.entity id).name = none) (resolved : (s.resolve n).result = (t, .ok arena)) :
    (∀ id name, (t.entity id).name = some name → (name, .entity id) ∈ n) ∧
      ∀ name id ref, (name, .entity id) ∈ n → t.Reaches id (.reference ref) →
        (t.reference ref).name = (Arena.ofNamespace n).nameOf? (t.reference ref).parent := by
  obtain ⟨u, r, result, same, entities, outcome⟩ :=
    resolveReferences_cases (s.assignNames n) n none
  cases resolved.symm.trans result
  cases outcome with
  | named known =>
    refine ⟨fun id name named => ?_, fun name id ref inside reaches => ?_⟩
    · rw [entities] at named
      refine (name_assignNames named).resolve_left fun before => ?_
      rw [fresh] at before
      cases before
    · obtain ⟨other, found, given⟩ := known ref
        (mem_referencesOf_walk.mpr ⟨name, id, inside, .inr (same.symm.reaches reaches)⟩)
      rw [given, same.parent]
      exact found.symm

theorem reference_assignNames (s : Store) (n : Namespace) (ref : Nat) :
    (s.assignNames n).reference ref = s.reference ref := by
  unfold assignNames
  induction n generalizing s with
  | nil => rfl
  | cons entry rest ih =>
    refine (ih _).trans ?_
    unfold assignName
    split <;> rfl

/-- The names of entities and references are those that the namespace gives. -/
structure NamedBy (s : Store) (n : Namespace) : Prop where
  entity : ∀ id name, (s.entity id).name = some name → (name, .entity id) ∈ n
  reference : ∀ ref name, (s.reference ref).name = some name →
    (Arena.ofNamespace n).nameOf? (s.reference ref).parent = some name

/-- When nothing was named before, a resolution gives no names but those of the namespace. -/
theorem namedBy_of_resolve {t : Store} {n : Namespace} {arena : Arena}
    (fresh : ∀ id, (s.entity id).name = none) (unnamed : ∀ ref, (s.reference ref).name = none)
    (resolved : (s.resolve n).result = (t, .ok arena)) : t.NamedBy n where
  entity := (names_of_resolve fresh resolved).1
  reference ref name named := by
    obtain ⟨u, outcome, result⟩ := outcome_resolveReferences (s.assignNames n) n none
    obtain rfl : t = u.1 := congrArg Prod.fst (resolved.symm.trans result)
    obtain ⟨visits, store⟩ := outcome.exists_named
    rw [store] at named ⊢
    rw [(sameButNames_named _ _ _).parent]
    refine (name_of_named named).resolve_left fun before => ?_
    rw [reference_assignNames, unnamed] at before
    cases before

/-- Only a reference that is reached can be unknown: an accessor leads to its own entity. -/
theorem exists_unknown_iff {n : Namespace} (own : s.OwnsAccessors) :
    (∃ ref ∈ referencesOf (s.walk n),
        (Arena.ofNamespace n).nameOf? (s.reference ref).parent = none) ↔
      ∃ name id ref, (name, .entity id) ∈ n ∧ s.Reaches id (.reference ref) ∧
        ∀ other e, (other, .entity e) ∈ n → handle e ≠ (s.reference ref).parent := by
  simp only [Arena.nameOf?_eq_none_iff, Namespace.mem_entities, mem_referencesOf_walk]
  constructor
  · rintro ⟨ref, ⟨name, id, inside, ⟨accessor, mem⟩ | reaches⟩, none⟩
    · exact absurd (own id _ mem).symm (none name id inside)
    · exact ⟨name, id, ref, inside, reaches, none⟩
  · rintro ⟨name, id, ref, inside, reaches, none⟩
    exact ⟨ref, ⟨name, id, inside, .inr reaches⟩, none⟩

/-- A resolution ends with a dangling reference exactly when a reference that one of the entities
reaches leads to none of them, and then the path is that of the first on the walk. Else every
accessor and every reference within reach has the name that the arena of the namespace gives to its
entity. Either way only names of entities and references have changed. Accessors lead to their
entity in every store that a program makes (`stable_ownsAccessors`). -/
theorem resolve_spec (s : Store) (n : Namespace) (own : s.OwnsAccessors) :
    let arena := Arena.ofNamespace n
    let t := (s.resolve n).result.1
    let outcome := (s.resolve n).result.2
    ((∃ path, outcome = .error (.failed (.dangling path none))) ↔
      ∃ name id ref, (name, .entity id) ∈ n ∧ s.Reaches id (.reference ref) ∧
        ∀ other e, (other, .entity e) ∈ n → handle e ≠ (s.reference ref).parent) ∧
    (∀ path, outcome = .error (.failed (.dangling path none)) →
      FirstDangling arena (s.assignNames n) n path) ∧
    ((¬ ∃ path, outcome = .error (.failed (.dangling path none))) →
      outcome = .ok arena ∧ ∀ name id, (name, .entity id) ∈ n → ∀ ref,
        (∃ accessor, (accessor, ref) ∈ (s.entity id).accessors) ∨ s.Reaches id (.reference ref) →
        ∃ known, arena.nameOf? (s.reference ref).parent = some known ∧
          (t.reference ref).name = some known) ∧
    SameButNames s t := by
  obtain ⟨t, r, result, same, -, resolved⟩ := resolveReferences_cases (s.assignNames n) n none
  have assigned := sameButNames_assignNames s n
  rw [show s.resolve n = (s.assignNames n).resolveReferences n none from rfl, result,
    ← exists_unknown_iff own]
  cases resolved with
  | @dangling path first =>
    have unknown := first.exists_unknown
    rw [assigned.walk] at unknown
    simp only [assigned.parent] at unknown
    refine ⟨⟨fun _ => unknown, fun _ => ⟨path, rfl⟩⟩, fun other eq => ?_,
      fun never => absurd ⟨path, rfl⟩ never, assigned.trans same⟩
    cases eq
    exact first
  | named known =>
    rw [assigned.walk] at known
    simp only [assigned.parent] at known
    refine ⟨⟨?_, ?_⟩, ?_, fun _ => ⟨rfl, ?_⟩, assigned.trans same⟩
    · rintro ⟨_, failed⟩
      cases failed
    · rintro ⟨ref, mem, unknown⟩
      obtain ⟨name, found, -⟩ := known ref mem
      cases unknown.symm.trans found
    · intro _ failed
      cases failed
    · intro name id inside ref within
      exact known ref (mem_referencesOf_walk.mpr ⟨name, id, inside, within⟩)

/-- A queue that reads an attribute of a bucket cannot be resolved without it. -/
theorem resolve_spec_queue :
    let n : Namespace := [("queue", .entity 1)]
    queueStore.OwnsAccessors ∧
      ∃ path, (queueStore.resolve n).result.2 = .error (.failed (.dangling path none)) := by
  intro n
  have reads : (Value.text "source", Value.reference 0) ∈ queueStore.props 1 := by decide
  have absent : ∀ other e, (other, .entity e) ∈ n →
      handle e ≠ (queueStore.reference 0).parent := by
    intro other e mem
    obtain ⟨-, rfl⟩ : other = "queue" ∧ e = 1 := by simpa [n] using mem
    decide
  exact ⟨ownsAccessors_queueStore, (resolve_spec queueStore n ownsAccessors_queueStore).1.mpr
    ⟨"queue", 1, 0, by decide, .prop reads, absent⟩⟩

end Store
end Infra
