import Infra.Proofs.Composite.Merge
import Infra.Proofs.Discovery.Spent

/-!
# Sharing properties

* `Store.Formed s` : what entities and composites refer to is there, and properties are entries of a
  mapping;
* `Store.Shares s t shared entities` : from the one store to the other, shared properties have been
  merged into an entity as often as it is listed; `Store.shares_foldl` : so does sharing;
* `Store.instances` : the composites that an expansion comes to, each after those within it;
  `Store.nameCount` : the number of names that an entity has in an expansion;
* `Store.Applied s t met` : composites have been met in some order, and have shared what they had to
  share; `Applied.applyShared` : to meet one more, and `Applied.expand` : a whole expansion;
* `Store.shared_per_name` : an expansion merges what a composite shares into an entity once for each
  of its names.
-/

namespace Infra
namespace Store

variable {s t u : Store} {met : List Nat}

/-- The properties that a composite shares. -/
def sharedOf (s : Store) (id : Nat) : List (String × Value) := (s.composite id).shared.getD []

/-- What the properties of an entity hold. -/
def heldProps (s : Store) (e : Nat) : List (Value × Held) := s.heldOf (s.props e)

/-- What the properties that a composite shares hold. -/
def heldShared (s : Store) (id : Nat) : List (String × Held) := s.heldOf (s.sharedOf id)

/-- What entities and composites refer to is there: the properties of every entity are entries of a
mapping of the store, those that a composite shares have different names, and its members are
entities of the store. -/
structure Formed (s : Store) : Prop where
  bound : ∀ e < s.entities.size, (s.entity e).props < s.mappings.size
  bags : ∀ e < s.entities.size, s.Bag (s.props e)
  names : ∀ id, ((s.sharedOf id).map (·.1)).Nodup
  shared : ∀ id, ∀ entry ∈ s.sharedOf id, s.Known entry.2
  members : ∀ id member e, (member, .entity e) ∈ (s.composite id).members → e < s.entities.size

/-- It is enough to look at the composites of the store: all others have neither members nor shared
properties. -/
theorem Formed.of_made (bound : ∀ e < s.entities.size, (s.entity e).props < s.mappings.size)
    (bags : ∀ e < s.entities.size, s.Bag (s.props e))
    (made : ∀ id < s.composites.size, ((s.sharedOf id).map (·.1)).Nodup ∧
      (∀ entry ∈ s.sharedOf id, s.Known entry.2) ∧
      ∀ e ∈ (s.composite id).members.filterMap (fun listed =>
        match listed.2 with
        | .entity e => some e
        | .composite _ => none), e < s.entities.size) :
    s.Formed := by
  have unmade : ∀ id, ¬ id < s.composites.size → s.composite id = default := fun id absent =>
    get_eq_default (Nat.le_of_not_lt absent)
  refine ⟨bound, bags, fun id => ?_, fun id entry mem => ?_, fun id member e mem => ?_⟩
  · by_cases lt : id < s.composites.size
    · exact (made id lt).1
    · unfold sharedOf
      rw [unmade id lt]
      exact .nil
  · by_cases lt : id < s.composites.size
    · exact (made id lt).2.1 entry mem
    · unfold sharedOf at mem
      rw [unmade id lt] at mem
      cases mem
  · by_cases lt : id < s.composites.size
    · exact (made id lt).2.2 e (List.mem_filterMap.mpr ⟨_, mem, rfl⟩)
    · rw [unmade id lt] at mem
      cases mem

/-! ## New properties -/

theorem grows_setProps (s : Store) (e : Nat) (entries : List (Value × Value)) :
    Grows s (s.setProps e entries) where
  size := Nat.le_refl _
  count := by
    simp only [containerCount, setProps, newMapping, Table.size_push, Table.size_modify]
    omega
  kept _ _ := rfl
  lists _ le := shape_of_size_le le

theorem entity_setProps_self {e : Nat} (lt : e < s.entities.size)
    (entries : List (Value × Value)) :
    ((s.setProps e entries).entity e).props = s.mappings.size := by
  show ((s.entities.modify e _).get e).props = _
  rw [Table.get_modify, if_pos ⟨rfl, lt⟩]

theorem props_setProps_self {e : Nat} (lt : e < s.entities.size) (entries : List (Value × Value)) :
    (s.setProps e entries).props e = entries := by
  unfold props
  rw [entity_setProps_self lt]
  exact Table.get_push_size _ _

theorem entity_setProps_of_ne {e other : Nat} (ne : other ≠ e) (entries : List (Value × Value)) :
    (s.setProps e entries).entity other = s.entity other := by
  show (s.entities.modify e _).get other = _
  rw [Table.get_modify, if_neg fun both => ne both.1.symm]
  rfl

theorem props_setProps_of_ne {e other : Nat} (ne : other ≠ e)
    (bound : (s.entity other).props < s.mappings.size) (entries : List (Value × Value)) :
    (s.setProps e entries).props other = s.props other := by
  unfold props
  rw [entity_setProps_of_ne ne]
  exact Table.get_push_of_lt bound _

theorem exists_mergeShared (s : Store) (shared : List (String × Value))
    (own : List (Value × Value)) :
    ∃ sequences, (mergeShared s shared own).2 = { s with sequences := sequences } := by
  have one : ∀ (merged : List (Value × Value) × Store) (entry : Value × Value),
      ∃ sequences, (mergeEntry merged entry).2 = { merged.2 with sequences := sequences } := by
    intro merged entry
    unfold mergeEntry
    dsimp only
    split
    · exact ⟨_, rfl⟩
    · split <;> exact ⟨_, rfl⟩
  have fold : ∀ (merged : List (Value × Value) × Store),
      ∃ sequences, (own.foldl mergeEntry merged).2 = { merged.2 with sequences := sequences } := by
    induction own with
    | nil => exact fun merged => ⟨_, rfl⟩
    | cons entry rest ih =>
      intro merged
      obtain ⟨_, first⟩ := one merged entry
      obtain ⟨_, later⟩ := ih (mergeEntry merged entry)
      rw [List.foldl_cons, later, first]
      exact ⟨_, rfl⟩
  exact fold (_, s)

/-! ## Shared properties -/

/-- Shared properties have been merged into each entity as often as it is listed. -/
structure Shares (s t : Store) (shared : List (String × Held)) (entities : List Nat) : Prop where
  formed : t.Formed
  grows : Grows s t
  size : t.entities.size = s.entities.size
  composites : t.composites = s.composites
  holds : ∀ e < s.entities.size, t.heldProps e = (merge shared)^[entities.count e] (s.heldProps e)
  kept : ∀ e < s.entities.size, e ∉ entities → t.props e = s.props e

theorem Formed.shares_nil (formed : s.Formed) (shared : List (String × Held)) :
    Shares s s shared [] :=
  ⟨formed, .refl s, rfl, rfl, fun _ _ => rfl, fun _ _ _ => rfl⟩

/-- With new properties alone, objects refer to such as are there if the properties do. -/
theorem Formed.of_props (formed : s.Formed) (grows : Grows s t)
    (size : t.entities.size = s.entities.size) (composites : t.composites = s.composites)
    (bound : ∀ e < s.entities.size, (t.entity e).props < t.mappings.size)
    (bags : ∀ e < s.entities.size, t.Bag (t.props e)) : t.Formed where
  bound e lt := bound e (size ▸ lt)
  bags e lt := bags e (size ▸ lt)
  names id := by
    unfold sharedOf composite
    rw [composites]
    exact formed.names id
  shared id entry mem := by
    unfold sharedOf composite at mem
    rw [composites] at mem
    exact (formed.shared id entry mem).grows grows
  members id member e mem := by
    unfold composite at mem
    rw [composites] at mem
    rw [size]
    exact formed.members id member e mem

theorem shares_share (formed : s.Formed) {shared : List (String × Value)} (filled : shared ≠ [])
    (nodup : (shared.map (·.1)).Nodup) (known : ∀ entry ∈ shared, s.Known entry.2) {e : Nat}
    (lt : e < s.entities.size) : Shares s (share shared s e) (s.heldOf shared) [e] := by
  have merged := mergeShared_spec filled nodup known (formed.bags e lt)
  obtain ⟨sequences, store⟩ := exists_mergeShared s shared (s.props e)
  let result := mergeShared s shared (s.props e)
  let after := result.2.setProps e result.1
  have grows : Grows s after := merged.grows.trans (grows_setProps _ _ _)
  have size : result.2.entities.size = s.entities.size := by rw [store]
  have bound : ∀ other < s.entities.size,
      (result.2.entity other).props < result.2.mappings.size := by
    intro other inside
    rw [store]
    exact formed.bound other inside
  have here : after.props e = result.1 := props_setProps_self (size ▸ lt) _
  have kept : ∀ other < s.entities.size, other ≠ e → after.props other = s.props other := by
    intro other inside ne
    rw [props_setProps_of_ne ne (bound other inside), store]
    rfl
  have composites : after.composites = s.composites := by
    show result.2.composites = _
    rw [store]
  have bags : ∀ other < s.entities.size, after.Bag (after.props other) := by
    intro other inside
    by_cases same : other = e
    · rw [same, here]
      exact merged.bag.grows (grows_setProps _ _ _)
    · rw [kept other inside same]
      exact (formed.bags other inside).grows grows
  have size' : after.entities.size = s.entities.size := by
    rw [← size]
    exact Table.size_modify _ _ _
  have more : after.mappings.size = result.2.mappings.size + 1 := Table.size_push _ _
  show Shares s after _ _
  refine ⟨formed.of_props grows size' composites ?_ bags, grows, size', composites, ?_, ?_⟩
  · intro other inside
    rw [more]
    by_cases same : other = e
    · rw [same, entity_setProps_self (size ▸ lt)]
      exact Nat.lt_succ_self _
    · rw [entity_setProps_of_ne same]
      exact Nat.lt_succ_of_lt (bound other inside)
  · intro other inside
    unfold heldProps
    by_cases same : other = e
    · rw [same, here, (grows_setProps _ _ _).heldOf merged.bag.known, merged.holds]
      simp
    · rw [kept other inside same, grows.heldOf (formed.bags other inside).known]
      simp [Ne.symm same]
  · intro other inside apart
    exact kept other inside fun same => apart (List.mem_singleton.mpr same)

/-- Sharing merges into each entity as often as it is listed. -/
theorem shares_foldl {shared : List (String × Value)} (filled : shared ≠ [])
    (nodup : (shared.map (·.1)).Nodup) (entities : List Nat) {s : Store} (formed : s.Formed)
    (known : ∀ entry ∈ shared, s.Known entry.2) (inside : ∀ e ∈ entities, e < s.entities.size) :
    Shares s (entities.foldl (share shared) s) (s.heldOf shared) entities := by
  induction entities generalizing s with
  | nil => exact formed.shares_nil _
  | cons e rest ih =>
    obtain ⟨lt, later⟩ := List.forall_mem_cons.mp inside
    have first := shares_share formed filled nodup known lt
    have next := ih first.formed (fun entry mem => (known entry mem).grows first.grows)
      (fun other mem => first.size ▸ later other mem)
    rw [first.grows.heldOf known] at next
    refine ⟨next.formed, first.grows.trans next.grows, next.size.trans first.size,
      next.composites.trans first.composites, fun other lt => ?_, fun other lt apart => ?_⟩
    · rw [List.foldl_cons, next.holds other (first.size ▸ lt), first.holds other lt,
        ← Function.iterate_add_apply]
      congr 2
      rw [List.count_cons, List.count_cons, List.count_nil, Nat.zero_add]
    · obtain ⟨ne, apart⟩ := List.ne_and_not_mem_of_not_mem_cons apart
      rw [List.foldl_cons, next.kept other (first.size ▸ lt) apart]
      exact first.kept other lt fun mem => ne (List.mem_singleton.mp mem)

/-! ## Expansion -/

/-- The composites that an expansion comes to, each after those within it. -/
def instances (s : Store) (id : Nat) : List Nat :=
  ((s.composite id).members.flatMap fun member =>
    match member.2 with
    | .entity _ => []
    | .composite inner => if _older : inner < id then instances s inner else []) ++ [id]
termination_by id

/-- The number of names that an entity has in the expansion of a composite. They are as many
whatever the composite is called. -/
def nameCount (s : Store) (id e : Nat) : Nat := ((s.expand "" id).1.map (·.2)).count e

theorem leaves_append (s : Store) (front label : String) (id : Nat) :
    s.leaves (front ++ label) id =
      (s.leaves label id).map fun leaf => (front ++ leaf.1, leaf.2) := by
  induction id using Nat.strongRecOn generalizing label with
  | _ id older =>
    rw [leaves, leaves, List.map_flatMap]
    congr 1
    funext member
    have name : front ++ label ++ "_" ++ member.1 = front ++ (label ++ "_" ++ member.1) := by
      simp only [String.append_assoc]
    rw [name]
    cases member.2 with
    | entity e => rfl
    | composite inner =>
      dsimp only
      split
      · next lt => exact older inner lt _
      · rfl

/-- The names of an expansion are the label and what does not depend on it. -/
theorem expand_relabel (s : Store) (label : String) (id : Nat) :
    (s.expand label id).1 = (s.expand "" id).1.map fun leaf => (label ++ leaf.1, leaf.2) := by
  have inj : Function.Injective (label ++ ·) := fun _ _ eq =>
    (String.append_right_inj label).mp eq
  rw [expand_eq, expand_eq, ← Named.ofList_rename inj, ← leaves_append, String.append_empty]

theorem count_expand (s : Store) (label : String) (id e : Nat) :
    ((s.expand label id).1.map (·.2)).count e = s.nameCount id e := by
  rw [expand_relabel, List.map_map]
  rfl

theorem Formed.leaf_lt (formed : s.Formed) {id e : Nat} {path : List String}
    (leaf : s.Leaf id path e) : e < s.entities.size := by
  induction leaf with
  | entity mem => exact formed.members _ _ _ mem
  | nested _ _ _ ih => exact ih

/-- What properties hold after composites, in some order, have shared theirs once for each name that
the entity has in their expansion. Those that have done so before do nothing. -/
def sharedInto (s : Store) (e : Nat) (order : List Nat) (own : List (Value × Held)) :
    List (Value × Held) :=
  (order.filter fun id => !(s.composite id).applied).foldl
    (fun own id => (merge (s.heldShared id))^[s.nameCount id e] own) own

theorem merge_nil (own : List (Value × Held)) : merge [] own = own := if_pos rfl

theorem sharedInto_append (s : Store) (e : Nat) (order more : List Nat)
    (own : List (Value × Held)) :
    s.sharedInto e (order ++ more) own = s.sharedInto e more (s.sharedInto e order own) := by
  unfold sharedInto
  rw [List.filter_append, List.foldl_append]

theorem sharedInto_of_idle {id : Nat} (idle : s.Idle id) (e : Nat) (own : List (Value × Held)) :
    s.sharedInto e [id] own = own := by
  unfold sharedInto
  rcases idle with applied | empty
  · simp [applied]
  · have none : s.heldShared id = [] := by
      unfold heldShared sharedOf
      rw [empty]
      rfl
    rw [List.filter_singleton]
    cases (s.composite id).applied with
    | true => rfl
    | false =>
      show (merge (s.heldShared id))^[s.nameCount id e] own = own
      rw [none]
      exact Function.iterate_fixed (merge_nil own) _

theorem sharedInto_of_pending {id : Nat} (pending : (s.composite id).applied = false) (e : Nat)
    (own : List (Value × Held)) :
    s.sharedInto e [id] own = (merge (s.heldShared id))^[s.nameCount id e] own := by
  unfold sharedInto
  rw [List.filter_singleton, pending]
  rfl

/-- The composites that were met have shared what they had to share, in that order, and nothing else
has changed. -/
structure Applied (s t : Store) (met : List Nat) : Prop where
  formed : t.Formed
  grows : Grows s t
  same : SameButProps s t
  idle : ∀ id ∈ met, t.Idle id
  others : ∀ id ∉ met, t.composite id = s.composite id
  holds : ∀ e < s.entities.size, t.heldProps e = s.sharedInto e met.eraseDups (s.heldProps e)
  kept : ∀ e < s.entities.size, (∀ id ∈ met, s.Idle id ∨ s.nameCount id e = 0) →
    t.props e = s.props e

theorem Formed.applied_nil (formed : s.Formed) : Applied s s [] :=
  ⟨formed, .refl s, .refl s, nofun, fun _ _ => rfl, fun _ _ => rfl, fun _ _ _ => rfl⟩

theorem eraseDups_append_singleton (met : List Nat) (id : Nat) :
    (met ++ [id]).eraseDups = met.eraseDups ++ if id ∈ met then [] else [id] := by
  rw [List.eraseDups_append]
  by_cases known : id ∈ met
  · simp [List.removeAll, known]
  · simp [List.removeAll, known, List.eraseDups_cons]

theorem Applied.meet_idle (h : Applied s t met) {id : Nat} (idle : t.Idle id) :
    Applied s t (met ++ [id]) where
  formed := h.formed
  grows := h.grows
  same := h.same
  idle := List.forall_mem_append.mpr ⟨h.idle, List.forall_mem_singleton.mpr idle⟩
  others other new := h.others other fun mem => new (List.mem_append_left _ mem)
  holds e lt := by
    rw [h.holds e lt, eraseDups_append_singleton]
    split
    · rw [List.append_nil]
    · next new =>
      have before : s.Idle id := by
        unfold Idle at idle ⊢
        rwa [h.others id new] at idle
      rw [sharedInto_append, sharedInto_of_idle before]
  kept e lt none := h.kept e lt fun other mem => none other (List.mem_append_left _ mem)

theorem applyShared_of_pending {id : Nat} (pending : (t.composite id).applied = false)
    (filled : t.sharedOf id ≠ []) (entities : List Nat) :
    t.applyShared id entities = (entities.foldl (share (t.sharedOf id)) t).setApplied id true := by
  unfold sharedOf at filled ⊢
  unfold Store.applyShared
  dsimp only
  split
  · next none => exact absurd (by rw [none]; rfl) filled
  · next empty => exact absurd (by rw [empty]; rfl) filled
  · next shared _ given =>
    rw [pending, given]
    rfl

theorem grows_setApplied (s : Store) (id : Nat) : Grows s (s.setApplied id true) :=
  ⟨Nat.le_refl _, Nat.le_refl _, fun _ _ => rfl, fun _ => shape_of_size_le⟩

theorem sharedOf_setApplied (s : Store) (id other : Nat) :
    (s.setApplied id true).sharedOf other = s.sharedOf other := by
  unfold sharedOf
  rw [composite_setApplied]
  split <;> rfl

theorem Formed.setApplied (formed : s.Formed) (id : Nat) : (s.setApplied id true).Formed where
  bound := formed.bound
  bags e lt := (formed.bags e lt).grows (grows_setApplied s id)
  names other := by
    rw [sharedOf_setApplied]
    exact formed.names other
  shared other entry mem := by
    rw [sharedOf_setApplied] at mem
    exact (formed.shared other entry mem).grows (grows_setApplied s id)
  members other member e mem := by
    rw [(sameButProps_setApplied s id true).members] at mem
    exact formed.members other member e mem

/-- To meet a composite shares what it has to share with the entities of its expansion. -/
theorem Applied.applyShared (h : Applied s t met) (formed : s.Formed) {id : Nat}
    {entities : List Nat} (counts : ∀ e, entities.count e = s.nameCount id e)
    (inside : ∀ e ∈ entities, e < s.entities.size) :
    Applied s (t.applyShared id entities) (met ++ [id]) := by
  by_cases idle : t.Idle id
  · rw [applyShared_of_idle idle]
    exact h.meet_idle idle
  · -- What is not idle was not met before, so it is as it was at the start.
    have new : id ∉ met := fun mem => idle (h.idle id mem)
    have unchanged := h.others id new
    have given : t.sharedOf id = s.sharedOf id := by
      unfold sharedOf
      rw [unchanged]
    have pending : (t.composite id).applied = false :=
      Bool.eq_false_iff.mpr fun applied => idle (.inl applied)
    have filled : t.sharedOf id ≠ [] := fun none => idle (.inr none)
    have shares : Shares t (entities.foldl (share (t.sharedOf id)) t) (s.heldShared id)
        entities := by
      have known := formed.shared id
      have all := shares_foldl filled (given ▸ formed.names id) entities h.formed
        (given ▸ fun entry mem => (known entry mem).grows h.grows)
        (fun e mem => h.same.entityCount ▸ inside e mem)
      rw [given] at all ⊢
      rwa [h.grows.heldOf known] at all
    have later := later_applyShared t id entities
    have same := sameButProps_applyShared t id entities
    have done := idle_applyShared t id entities
    rw [applyShared_of_pending pending filled] at later same done ⊢
    refine ⟨shares.formed.setApplied id, h.grows.trans (shares.grows.trans (grows_setApplied _ _)),
      h.same.trans same, ?_, ?_, ?_, ?_⟩
    · exact List.forall_mem_append.mpr
        ⟨fun other mem => later.idle other (h.idle other mem), List.forall_mem_singleton.mpr done⟩
    · intro other apart
      rw [List.mem_append, List.mem_singleton, not_or] at apart
      rw [composite_setApplied, if_neg fun both => apart.2 both.1.symm, ← h.others other apart.1]
      unfold composite
      rw [shares.composites]
    · intro e lt
      rw [eraseDups_append_singleton, if_neg new, sharedInto_append,
        sharedInto_of_pending (unchanged ▸ pending), ← h.holds e lt, ← counts]
      exact shares.holds e (h.same.entityCount ▸ lt)
    · intro e lt none
      rw [List.forall_mem_append] at none
      have absent : e ∉ entities := by
        rcases none.2 id List.mem_cons_self with before | unnamed
        · unfold Idle at before
          rw [← unchanged] at before
          exact absurd before idle
        · rw [← counts] at unnamed
          exact List.count_eq_zero.mp unnamed
      rw [← h.kept e lt none.1]
      exact shares.kept e (h.same.entityCount ▸ lt) absent

/-- To meet composites one after the other, of which those that are members of another come with
all that is within them. -/
theorem Applied.visit (label : String) (id : Nat)
    (older : ∀ inner < id, ∀ {t : Store} {met : List Nat} (label : String), Applied s t met →
      Applied s (t.expand label inner).2 (met ++ s.instances inner))
    (members : List (String × Member)) (reached : List (String × Nat) × Store)
    (h : Applied s reached.2 met) :
    Applied s (members.foldl (Store.visit label id) reached).2
      (met ++ members.flatMap fun member =>
        match member.2 with
        | .entity _ => []
        | .composite inner => if inner < id then s.instances inner else []) := by
  induction members generalizing reached met with
  | nil =>
    rw [List.flatMap_nil, List.append_nil]
    exact h
  | cons member rest ih =>
    obtain ⟨name, target⟩ := member
    rw [List.foldl_cons, List.flatMap_cons, ← List.append_assoc]
    unfold Store.visit
    cases target with
    | entity e =>
      dsimp only
      rw [List.append_nil]
      exact ih _ h
    | composite inner =>
      dsimp only
      split
      · next lt => exact ih _ (older inner lt _ h)
      · rw [List.append_nil]
        exact ih _ h

/-- An expansion meets the composite after those within it. -/
theorem Applied.expand (formed : s.Formed) (h : Applied s t met) (label : String) (id : Nat) :
    Applied s (t.expand label id).2 (met ++ s.instances id) := by
  induction id using Nat.strongRecOn generalizing t met label with
  | _ id older =>
    let reached := (t.composite id).members.foldl (Store.visit label id) ([], t)
    have expanded : t.expand label id =
        (reached.1, reached.2.applyShared id (reached.1.map (·.2))) := expand_eq_visit t label id
    -- The names are those that the expansion gives in the store where it begins.
    have names : reached.1 = (s.expand label id).1 := by
      rw [expand_eq, ← h.same.leaves, ← expand_eq, expanded]
    have inside : ∀ e ∈ reached.1.map (·.2), e < s.entities.size := by
      intro e mem
      obtain ⟨⟨full, _⟩, listed, rfl⟩ := List.mem_map.mp mem
      rw [names, expand_eq] at listed
      obtain ⟨path, leaf, -⟩ := mem_leaves.mp (Named.mem_of_mem_ofList listed)
      exact formed.leaf_lt leaf
    have members := h.visit label id
      (fun inner lt _ _ label h => older inner lt h label) (s.composite id).members ([], t)
    rw [← h.same.members] at members
    rw [expanded, instances, ← List.append_assoc, ← h.same.members]
    exact members.applyShared formed (fun e => by rw [names, count_expand]) inside

/-- How often properties are shared. An expansion comes to every composite after those within it,
and the first time it does so, it merges what the composite has to share into an entity once for
every name that the entity has in the expansion of that composite. Another expansion changes
nothing. -/
theorem shared_per_name (s : Store) (formed : s.Formed) (label : String) (id e : Nat)
    (known : e < s.entities.size) :
    (s.expand label id).2.heldProps e =
      ((s.instances id).eraseDups.filter fun inner => !(s.composite inner).applied).foldl
        (fun own inner => (merge (s.heldShared inner))^[s.nameCount inner e] own)
        (s.heldProps e) ∧
    ∀ again, ((s.expand label id).2.expand again id).2 = (s.expand label id).2 :=
  ⟨(formed.applied_nil.expand formed label id).holds e known,
    expand_of_spent (spent_expand s label id)⟩

/-- A composite that has one entity under two names and shares a list. -/
def listedTwice : Store :=
  { initial with
    sequences := ⟨#[⟨.list, [.text "member"]⟩, ⟨.list, [.text "shared"]⟩]⟩
    mappings := ⟨#[[(.text "Tags", .sequence 0)]]⟩
    entities := ⟨#[⟨.resource, "Bucket", "", "", 0, [], none, none, none⟩]⟩
    composites := ⟨#[⟨0, [("a", .entity 0), ("b", .entity 0)], some [("Tags", .sequence 1)],
      false⟩]⟩ }

theorem formed_listedTwice : listedTwice.Formed := by
  refine .of_made (fun e lt => ?_) (fun e lt => ?_) fun id lt => ?_
  · obtain rfl : e = 0 := Nat.lt_one_iff.mp lt
    decide
  · obtain rfl : e = 0 := Nat.lt_one_iff.mp lt
    have props : listedTwice.props 0 = [(.text "Tags", .sequence 0)] := rfl
    rw [props]
    exact ⟨List.forall_mem_singleton.mpr rfl, List.pairwise_singleton _ _,
      List.forall_mem_singleton.mpr Nat.two_pos⟩
  · obtain rfl : id = 0 := Nat.lt_one_iff.mp lt
    exact ⟨by decide, List.forall_mem_singleton.mpr Nat.one_lt_two, by decide⟩

theorem instances_listedTwice : listedTwice.instances 0 = [0] := by
  rw [instances]
  rfl

theorem nameCount_listedTwice : listedTwice.nameCount 0 0 = 2 := by
  unfold nameCount
  rw [expand_eq, leaves]
  decide +kernel

theorem lookup_sharedInto_listedTwice :
    (listedTwice.sharedInto 0 (listedTwice.instances 0).eraseDups (listedTwice.heldProps 0)).lookup
      (.text "Tags") = some (.list [.text "shared", .text "shared", .text "member"]) := by
  rw [instances_listedTwice]
  show (listedTwice.sharedInto 0 [0] _).lookup _ = _
  rw [sharedInto_of_pending rfl, nameCount_listedTwice]
  have given : (listedTwice.heldShared 0).lookup "Tags" = some (.list [.text "shared"]) := rfl
  have held : (listedTwice.heldProps 0).lookup (.text "Tags") = some (.list [.text "member"]) := rfl
  exact lookup_iterate_merge_list given held 2

/-- The list is merged twice. -/
theorem shared_per_name_listedTwice : listedTwice.Formed ∧ 0 < listedTwice.entities.size ∧
    ((listedTwice.expand "c" 0).2.heldProps 0).lookup (.text "Tags") =
      some (.list [.text "shared", .text "shared", .text "member"]) := by
  refine ⟨formed_listedTwice, by decide, ?_⟩
  rw [(shared_per_name listedTwice formed_listedTwice "c" 0 0 (by decide)).1]
  exact lookup_sharedInto_listedTwice

/-- So a list that is shared once need not be merged once. -/
theorem shared_list_repeated : ¬ ∀ (s : Store) (label name : String) (id e : Nat)
    (first last : List Value), s.Formed → e < s.entities.size → (∃ path, s.Leaf id path e) →
    s.instances id = [id] → (s.composite id).applied = false →
    (s.heldShared id).lookup name = some (.list first) →
    (s.heldProps e).lookup (.text name) = some (.list last) →
    ((s.expand label id).2.heldProps e).lookup (.text name) = some (.list (first ++ last)) := by
  intro once
  have merged := once listedTwice "c" "Tags" 0 0 [.text "shared"] [.text "member"]
    formed_listedTwice (by decide) ⟨["a"], .entity List.mem_cons_self⟩ instances_listedTwice rfl
    rfl rfl
  rw [(formed_listedTwice.applied_nil.expand formed_listedTwice "c" 0).holds 0 (by decide),
    List.nil_append, lookup_sharedInto_listedTwice] at merged
  exact absurd merged (by decide)

end Store
end Infra
