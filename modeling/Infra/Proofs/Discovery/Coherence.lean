import Infra.Proofs.Discovery.Collision
import Infra.Proofs.Discovery.Naming
import Mathlib

/-!
# What a collected namespace holds

* `Store.met` : the objects that units bring, with the names they are met under;
* `Store.mem_collected`, `Store.mem_values_collected` : a collected namespace holds each of them,
  under the first of its names;
* `Store.collect_complete` : so every exported entity and output is there, and every leaf of an
  exported composite but for those whose full name another leaf has;
* `Store.name_assignNames_of_mem` : the names of a namespace are those that its entities record;
* `Store.names_coherent` : the namespace, its entities, the arena and the references that were
  resolved agree on the name of an entity.

Mathlib is imported whole, for the equations of its functions by which closed stores are evaluated.
-/

namespace Infra

/-! ## Exports that are passed over -/

theorem remember_lookup {expanded : List (String × Nat)} {entry : String × Value} {name : String}
    {id : Nat} (known : (remember expanded entry).lookup name = some id) :
    expanded.lookup name = some id ∨ entry = (name, .composite id) := by
  obtain ⟨key, v⟩ := entry
  unfold remember at known
  cases v with
  | composite other =>
    dsimp only at known
    split at known
    · exact .inl known
    · rw [List.lookup_cons] at known
      by_cases eq : name = key
      · rw [beq_iff_eq.mpr eq] at known
        cases known
        exact .inr (by rw [eq])
      · rw [beq_eq_false_iff_ne.mpr eq] at known
        exact .inl known
  | _ => exact .inl known

theorem of_isAgain {expanded : List (String × Nat)} {entry : String × Value}
    (again : isAgain expanded entry = true) :
    ∃ id, entry.2 = .composite id ∧ expanded.lookup entry.1 = some id := by
  obtain ⟨name, v⟩ := entry
  unfold isAgain at again
  cases v with
  | composite id => exact ⟨id, rfl, by simpa using again⟩
  | _ => cases again

/-- A composite that is exported again brings what it brought before, so to pass over it changes no
first name. -/
theorem firstName?_claimsFrom {spread : String → Nat → List (String × Nat)} {before : List Claim}
    {expanded : List (String × Nat)}
    (brought : ∀ name id, expanded.lookup name = some id →
      ∀ c ∈ claimsOf spread (name, .composite id), c.2 ∈ before.map (·.2))
    (exports : List (String × Value)) (v : Value) :
    firstName? (before ++ claimsFrom spread expanded exports) v =
      firstName? (before ++ exports.flatMap (claimsOf spread)) v := by
  induction exports generalizing before expanded with
  | nil => rfl
  | cons entry rest ih =>
    have next : ∀ name id, (remember expanded entry).lookup name = some id →
        ∀ c ∈ claimsOf spread (name, .composite id),
          c.2 ∈ (before ++ claimsOf spread entry).map (·.2) := by
      intro name id known c mem
      rw [List.map_append, List.mem_append]
      rcases remember_lookup known with earlier | rfl
      · exact .inl (brought name id earlier c mem)
      · exact .inr (List.mem_map_of_mem mem)
    rw [claimsFrom, List.flatMap_cons, ← List.append_assoc, ← List.append_assoc, ← ih next]
    split
    · next again =>
      obtain ⟨id, eq, known⟩ := of_isAgain again
      have nothing : firstName? (before ++ claimsOf spread entry) v = firstName? before v := by
        refine firstName?_append_of_known fun c mem => brought entry.1 id known c ?_
        rwa [← eq]
      rw [List.append_nil, firstName?_append, firstName?_append (before ++ _), nothing]
    · rfl

namespace Store

variable {s t : Store} {units : List LoadedUnit} {n : Namespace} {name : String} {v : Value}

/-! ## Objects of a namespace -/

/-- The objects that units bring with the names that they are met under, in the order of units, of
exports and of the entities of an expansion. -/
def met (s : Store) (units : List LoadedUnit) : List Claim :=
  (units.flatMap (·.exports)).flatMap (claimsOf s.spread)

/-- A collected namespace holds each object under the first name it is met under. -/
theorem mem_collected (done : (s.collect units).result.2 = .ok n) :
    (name, v) ∈ n ↔ firstName? (s.met units) v = some name := by
  have same : firstName? ([] ++ s.offers units) v = firstName? ([] ++ s.met units) v :=
    firstName?_claimsFrom (fun _ _ known => by cases known) _ v
  rw [List.nil_append, List.nil_append] at same
  rw [eq_firsts_of_collect done, mem_firsts, same]

theorem mem_values_collected (done : (s.collect units).result.2 = .ok n) :
    v ∈ n.map (·.2) ↔ v ∈ (s.met units).map (·.2) := by
  constructor
  · intro mem
    obtain ⟨⟨name, u⟩, inside, rfl⟩ := List.mem_map.mp mem
    exact List.mem_map_of_mem (f := (·.2)) (mem_of_firstName? ((mem_collected done).mp inside))
  · intro mem
    cases first : firstName? (s.met units) v with
    | none => exact absurd mem (firstName?_eq_none_iff.mp first)
    | some name => exact List.mem_map_of_mem (f := (·.2)) ((mem_collected done).mpr first)

theorem mem_values_met {unit : LoadedUnit} (loaded : unit ∈ units) {entry : String × Value}
    (exported : entry ∈ unit.exports) {c : Claim} (mem : c ∈ claimsOf s.spread entry) :
    c.2 ∈ (s.met units).map (·.2) :=
  List.mem_map_of_mem (List.mem_flatMap.mpr
    ⟨entry, List.mem_flatMap.mpr ⟨unit, loaded, exported⟩, mem⟩)

/-- Nothing that units export is lost, but for leaves of a composite whose full name a different
leaf has. -/
theorem collect_complete (done : (s.collect units).result.2 = .ok n) {unit : LoadedUnit}
    (loaded : unit ∈ units) :
    (∀ name v, (name, v) ∈ unit.exports → Collection.isClaim v → v ∈ n.map (·.2)) ∧
    ∀ name id path e, (name, .composite id) ∈ unit.exports → s.Leaf id path e →
      (∀ way other, s.Leaf id way other → fullName name way = fullName name path → other = e) →
      .entity e ∈ n.map (·.2) := by
  simp only [mem_values_collected done]
  constructor
  · intro name v exported isClaim
    have claimed : (name, v) ∈ claimsOf s.spread (name, v) := by
      cases v with
      | entity _ => exact List.mem_singleton_self _
      | output _ => exact List.mem_singleton_self _
      | _ => cases isClaim
    exact mem_values_met loaded exported claimed
  · intro name id path e exported leaf alone
    have kept : (fullName name path, e) ∈ s.spread name id := by
      rw [spread_eq]
      refine Named.mem_ofList (mem_leaves.mpr ⟨path, leaf, rfl⟩) fun other mem => ?_
      obtain ⟨way, reached, eq⟩ := mem_leaves.mp mem
      exact alone way other reached eq.symm
    have claimed : (fullName name path, .entity e) ∈ claimsOf s.spread (name, .composite id) :=
      List.mem_map_of_mem (f := fun leaf => (leaf.1, Value.entity leaf.2)) kept
    exact mem_values_met loaded exported claimed

/-- The leaf of a composite is there beside another export. -/
theorem collect_complete_nested :
    let units : List LoadedUnit := [⟨"unit", [("api", .composite 0), ("queue", .entity 1)]⟩]
    ∃ n, (nestedStore.collect units).result.2 = .ok n ∧ .entity 0 ∈ n.map (·.2) := by
  intro units
  have collected : (nestedStore.collect units).result.2 =
      .ok [("api_b", .entity 0), ("queue", .entity 1)] := by cbv
  have leaves : nestedStore.leaves "api" 0 = [("api_b", 0)] := by cbv
  have leaf : nestedStore.Leaf 0 ["b"] 0 := .entity (by decide)
  refine ⟨_, collected, (collect_complete collected List.mem_cons_self).2 "api" 0 ["b"] 0
    List.mem_cons_self leaf fun way other reached _ => ?_⟩
  have mem : (fullName "api" way, other) ∈ nestedStore.leaves "api" 0 :=
    mem_leaves.mpr ⟨way, reached, rfl⟩
  rw [leaves, List.mem_singleton] at mem
  exact (Prod.mk.inj mem).2

/-- Of two leaves with one full name the first is lost. -/
theorem leaf_lost_nested :
    let units : List LoadedUnit := [⟨"unit", [("api", .composite 1)]⟩]
    nestedStore.Leaf 1 ["a", "b"] 0 ∧
      ∃ n, (nestedStore.collect units).result.2 = .ok n ∧ .entity 0 ∉ n.map (·.2) := by
  intro units
  have inner : nestedStore.Leaf 0 ["b"] 0 := .entity (by decide)
  have collected : (nestedStore.collect units).result.2 = .ok [("api_a_b", .entity 1)] := by cbv
  exact ⟨.nested (by decide) (by decide) inner, _, collected, by decide⟩

/-! ## Names of a namespace -/

theorem name_assignName (s : Store) (entry : String × Value) (id : Nat) :
    ((s.assignName entry).entity id).name =
      if entry.2 = .entity id ∧ id < s.entities.size then some entry.1
      else (s.entity id).name := by
  obtain ⟨given, v⟩ := entry
  unfold assignName
  cases v with
  | entity other =>
    change ((s.entities.modify other _).get id).name = _
    rw [Table.get_modify]
    simp only [Value.entity.injEq]
    split <;> rfl
  | _ => rw [if_neg (fun same => by cases same.1)]

/-- An entity that a namespace holds records one of its names there, the last one. -/
theorem exists_name_assignNames {id : Nat} (mem : (name, .entity id) ∈ n)
    (made : id < s.entities.size) :
    ∃ other, (other, .entity id) ∈ n ∧ ((s.assignNames n).entity id).name = some other := by
  induction n using List.reverseRecOn with
  | nil => cases mem
  | append_singleton init last ih =>
    have step : s.assignNames (init ++ [last]) = (s.assignNames init).assignName last :=
      List.foldl_concat _ _ _ _
    have kept : id < (s.assignNames init).entities.size := by
      rwa [(sameButNames_assignNames s init).entityCount]
    rw [step, name_assignName]
    split
    · next here => exact ⟨last.1, by simp [← here.1], rfl⟩
    · next elsewhere =>
      have earlier : (name, .entity id) ∈ init := by
        refine (List.mem_append.mp mem).resolve_right fun inside => elsewhere ⟨?_, kept⟩
        rw [← List.mem_singleton.mp inside]
      obtain ⟨other, inside, named⟩ := ih earlier
      exact ⟨other, List.mem_append_left _ inside, named⟩

theorem name_assignNames_of_mem {id : Nat} (once : (n.map (·.2)).Nodup)
    (mem : (name, .entity id) ∈ n) (made : id < s.entities.size) :
    ((s.assignNames n).entity id).name = some name := by
  obtain ⟨other, inside, named⟩ := exists_name_assignNames mem made
  have same : (other, Value.entity id) = (name, .entity id) :=
    List.inj_on_of_nodup_map once inside mem rfl
  rw [named, (Prod.mk.inj same).1]

/-- After units are collected and resolved, no object has two names, and each object has the first
name that it is met under. An entity of the namespace records its name, the arena knows it under
that name, and its accessors and every reference to it within reach of the namespace have that
name. Accessors lead to their entity in every store that a program makes
(`stable_ownsAccessors`). -/
theorem names_coherent {s' : Store} {arena : Arena} (own : s.OwnsAccessors)
    (collected : (s.collect units).result = (s', .ok n))
    (resolved : (s'.resolve n).result = (t, .ok arena)) :
    (n.map (·.2)).Nodup ∧
    (∀ name v, (name, v) ∈ n ↔ firstName? (s.met units) v = some name) ∧
    ∀ name id, (name, .entity id) ∈ n →
      (id < s.entities.size → (t.entity id).name = some name) ∧
      arena.nameOf? (handle id) = some name ∧ arena.find? (handle id) = some id ∧
      (∀ accessor ref, (accessor, ref) ∈ (t.entity id).accessors →
        (t.reference ref).name = some name) ∧
      ∀ other e ref, (other, .entity e) ∈ n → t.Reaches e (.reference ref) →
        (t.reference ref).parent = handle id → (t.reference ref).name = some name := by
  obtain ⟨-, once⟩ := collect_spec collected
  refine ⟨once, fun name v => mem_collected (congrArg Prod.snd collected), fun name id mem => ?_⟩
  have props : SameButProps s s' := by
    have all := sameButProps_collect s units
    rwa [collected] at all
  have assigned := sameButNames_assignNames s' n
  obtain ⟨u, r, result, same, entities, outcome⟩ :=
    resolveReferences_cases (s'.assignNames n) n none
  cases resolved.symm.trans result
  cases outcome with
  | named known =>
    have all := assigned.trans same
    have entry : Arena.entry? (Arena.ofNamespace n) (handle id) = some (name, id) :=
      (Arena.entry?_eq_some_iff (Namespace.entities_nodup once)).mpr
        ⟨Namespace.mem_entities.mpr mem, rfl⟩
    have label : (Arena.ofNamespace n).nameOf? (handle id) = some name := by
      rw [Arena.nameOf?, entry, Option.map_some]
    have found : (Arena.ofNamespace n).find? (handle id) = some id := by
      rw [Arena.find?, entry, Option.map_some]
    -- A reference to the entity that the walk has met has the name in the arena.
    have given : ∀ ref ∈ referencesOf ((s'.assignNames n).walk n),
        (t.reference ref).parent = handle id → (t.reference ref).name = some name := by
      intro ref met parent
      obtain ⟨other, labelled, named⟩ := known ref met
      rw [← same.parent, parent] at labelled
      rw [named]
      exact labelled.symm.trans label
    refine ⟨fun made => ?_, label, found, fun accessor ref inside => ?_,
      fun other e ref inside reaches => ?_⟩
    · rw [entities]
      exact name_assignNames_of_mem once mem (by rwa [props.entityCount])
    · have leads : (t.reference ref).parent = handle id := by
        rw [all.accessors] at inside
        rw [all.parent]
        exact (props.ownsAccessors own) id _ inside
      rw [same.accessors] at inside
      exact given ref (mem_referencesOf_walk.mpr ⟨name, id, mem, .inl ⟨accessor, inside⟩⟩) leads
    · exact given ref
        (mem_referencesOf_walk.mpr ⟨other, e, inside, .inr (same.symm.reaches reaches)⟩)

/-- The queue's reference to the bucket has the name that the bucket is first exported under. -/
theorem names_coherent_queue :
    let units : List LoadedUnit :=
      [⟨"unit", [("bucket", .entity 0), ("alias", .entity 0), ("queue", .entity 1)]⟩]
    let n : Namespace := [("bucket", .entity 0), ("queue", .entity 1)]
    let t := (queueStore.assignNames n).nameReference 0 "bucket"
    queueStore.OwnsAccessors ∧ (queueStore.collect units).result = (queueStore, .ok n) ∧
      (queueStore.resolve n).result = (t, .ok (Arena.ofNamespace n)) ∧
      (t.entity 0).name = some "bucket" ∧ (t.reference 0).name = some "bucket" := by
  intro units n t
  have collected : (queueStore.collect units).result = (queueStore, .ok n) := by cbv
  have resolved : (queueStore.resolve n).result = (t, .ok (Arena.ofNamespace n)) := by cbv
  have reads : (Value.text "source", Value.reference 0) ∈ t.props 1 := by decide
  obtain ⟨-, -, coherent⟩ := names_coherent ownsAccessors_queueStore collected resolved
  obtain ⟨named, -, -, -, reached⟩ := coherent "bucket" 0 (by decide)
  exact ⟨ownsAccessors_queueStore, collected, resolved, named (by decide),
    reached "queue" 1 0 (by decide) (.prop reads) (by decide)⟩

end Store
end Infra
