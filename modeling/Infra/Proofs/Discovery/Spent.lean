import Infra.Proofs.Discovery.Expansion

/-!
# Collecting again

* `Store.Idle s id` : the composite has nothing to share, or has shared it;
* `Store.Spent s id` : so it is for the composite and for all within it;
  `Store.spent_expand`, `Store.expand_of_spent` : an expansion leaves a spent composite, and leaves
  the store as it is when it finds one;
* `Store.Later s t` : `t` has the composites of `s`, and no fewer of them idle;
* `Collection.Repeats` : from every later store a step comes to the same and changes nothing;
* `Store.collect_again` : so it is for collecting, also where it is refused.
-/

namespace Infra
namespace Store

variable {s t u : Store}

/-- The composite has nothing to share, or has shared it. -/
def Idle (s : Store) (id : Nat) : Prop :=
  (s.composite id).applied = true ∨ (s.composite id).shared.getD [] = []

/-- The composite and the composites within it are idle. -/
inductive Spent (s : Store) : Nat → Prop
  | intro {id : Nat} : s.Idle id →
      (∀ member inner, (member, .composite inner) ∈ (s.composite id).members → inner < id →
        Spent s inner) → Spent s id

/-- The composites of both stores have the same members, and those that were idle are so. -/
structure Later (s t : Store) : Prop where
  members : ∀ id, (t.composite id).members = (s.composite id).members
  idle : ∀ id, s.Idle id → t.Idle id

theorem Later.refl (s : Store) : Later s s := ⟨fun _ => rfl, fun _ idle => idle⟩

theorem Later.trans (h : Later s t) (k : Later t u) : Later s u where
  members id := (k.members id).trans (h.members id)
  idle id idle := k.idle id (h.idle id idle)

theorem later_of_composites (same : t.composites = s.composites) : Later s t := by
  have each : ∀ id, t.composite id = s.composite id := by
    intro id
    unfold composite
    rw [same]
  constructor
  · intro id
    rw [each]
  · intro id idle
    unfold Idle
    rw [each]
    exact idle

/-- What is spent stays so. -/
theorem Spent.later {id : Nat} (h : s.Spent id) (later : Later s t) : t.Spent id := by
  induction h with
  | intro idle _ ih =>
    apply Spent.intro (later.idle _ idle)
    intro member inner mem lt
    rw [later.members] at mem
    exact ih member inner mem lt

/-! ## Shared properties -/

theorem composites_mergeEntry (merged : List (Value × Value) × Store) (entry : Value × Value) :
    (mergeEntry merged entry).2.composites = merged.2.composites := by
  unfold mergeEntry
  dsimp only
  split
  · rfl
  · split <;> rfl

theorem composites_share (shared : List (String × Value)) (s : Store) (entity : Nat) :
    (share shared s entity).composites = s.composites := by
  have fold : ∀ (own : List (Value × Value)) (merged : List (Value × Value) × Store),
      (own.foldl mergeEntry merged).2.composites = merged.2.composites := by
    intro own
    induction own with
    | nil => exact fun merged => rfl
    | cons entry rest ih =>
      intro merged
      exact (ih _).trans (composites_mergeEntry merged entry)
  exact fold (s.props entity) (_, s)

theorem composites_foldl_share (shared : List (String × Value)) (s : Store) (entities : List Nat) :
    (entities.foldl (share shared) s).composites = s.composites := by
  induction entities generalizing s with
  | nil => rfl
  | cons entity rest ih => exact (ih _).trans (composites_share shared s entity)

theorem composite_setApplied (s : Store) (id other : Nat) :
    (s.setApplied id true).composite other =
      if id = other ∧ other < s.composites.size then { s.composite other with applied := true }
      else s.composite other := Table.get_modify _ _ _ _

theorem later_setApplied (s : Store) (id : Nat) : Later s (s.setApplied id true) := by
  constructor
  · intro other
    rw [composite_setApplied]
    split <;> rfl
  · intro other idle
    unfold Idle
    rw [composite_setApplied]
    split
    · exact .inl rfl
    · exact idle

theorem later_applyShared (s : Store) (id : Nat) (entities : List Nat) :
    Later s (s.applyShared id entities) := by
  unfold applyShared
  dsimp only
  split
  · exact .refl s
  · exact .refl s
  · split
    · exact .refl s
    · exact (later_of_composites (composites_foldl_share _ s entities)).trans (later_setApplied _ id)

/-- After its shared properties have been applied, a composite is idle. -/
theorem idle_applyShared (s : Store) (id : Nat) (entities : List Nat) :
    (s.applyShared id entities).Idle id := by
  unfold applyShared
  dsimp only
  split
  · next none => exact .inr (by rw [none]; rfl)
  · next empty => exact .inr (by rw [empty]; rfl)
  · next shared nonempty given =>
    split
    · next applied => exact .inl applied
    · unfold Idle
      rw [composite_setApplied]
      split
      · exact .inl rfl
      · -- A composite that was never made shares nothing.
        next absent =>
        have same := composites_foldl_share shared s entities
        have unmade : s.composites.size ≤ id := by
          rw [same] at absent
          simpa using absent
        right
        unfold composite
        rw [same, get_eq_default unmade]
        rfl

theorem applyShared_of_idle {id : Nat} (idle : s.Idle id) (entities : List Nat) :
    s.applyShared id entities = s := by
  unfold applyShared
  dsimp only
  split
  · rfl
  · rfl
  · next shared nonempty given =>
    split
    · rfl
    · next pending =>
      rcases idle with applied | empty
      · exact absurd applied pending
      · rw [given, Option.getD_some] at empty
        exact (nonempty empty).elim

/-! ## Expansion -/

theorem later_expand (s : Store) (label : String) (id : Nat) : Later s (s.expand label id).2 :=
  expand_relates Later.refl Later.trans later_applyShared s label id

theorem later_foldl_visit (label : String) (id : Nat) (members : List (String × Member))
    (reached : List (String × Nat) × Store) :
    Later reached.2 (members.foldl (visit label id) reached).2 :=
  foldl_visit_relates Later.refl Later.trans (fun inner _ s label => later_expand s label inner)
    members reached

/-- A member that is a composite is spent after its visit. -/
theorem spent_foldl_visit {label : String} {id : Nat}
    (older : ∀ inner < id, ∀ s label, (expand s label inner).2.Spent inner)
    {members : List (String × Member)} (reached : List (String × Nat) × Store) {member : String}
    {inner : Nat} (mem : (member, .composite inner) ∈ members) (lt : inner < id) :
    (members.foldl (visit label id) reached).2.Spent inner := by
  induction members generalizing reached with
  | nil => cases mem
  | cons head rest ih =>
    rw [List.foldl_cons]
    rcases List.mem_cons.mp mem with rfl | inside
    · have here : (visit label id reached (member, .composite inner)).2.Spent inner := by
        unfold visit
        dsimp only
        rw [if_pos lt]
        exact older inner lt _ _
      -- The visits of the other members come later and leave it so.
      exact here.later (later_foldl_visit label id rest _)
    · exact ih _ inside

/-- An expansion leaves the composite spent. -/
theorem spent_expand (s : Store) (label : String) (id : Nat) : (s.expand label id).2.Spent id := by
  induction id using Nat.strongRecOn generalizing s label with
  | _ id older =>
    have later := later_expand s label id
    rw [expand_eq_visit] at later ⊢
    apply Spent.intro (idle_applyShared _ _ _)
    intro member inner mem lt
    rw [later.members] at mem
    exact (spent_foldl_visit older ([], s) mem lt).later (later_applyShared _ _ _)

theorem foldl_visit_of_spent {label : String} {id : Nat}
    (older : ∀ inner < id, ∀ s label, Spent s inner → (s.expand label inner).2 = s)
    {members : List (String × Member)} (reached : List (String × Nat) × Store)
    (spent : ∀ member inner, (member, .composite inner) ∈ members → inner < id →
      reached.2.Spent inner) : (members.foldl (visit label id) reached).2 = reached.2 := by
  induction members generalizing reached with
  | nil => rfl
  | cons head rest ih =>
    have here : (visit label id reached head).2 = reached.2 := by
      obtain ⟨member, target⟩ := head
      unfold visit
      cases target with
      | entity e => rfl
      | composite inner =>
        dsimp only
        split
        · next lt => exact older inner lt _ _ (spent member inner List.mem_cons_self lt)
        · rfl
    rw [List.foldl_cons, ih, here]
    intro member inner mem lt
    rw [here]
    exact spent member inner (List.mem_cons_of_mem _ mem) lt

/-- The expansion of a spent composite leaves the store as it is. -/
theorem expand_of_spent {id : Nat} (spent : s.Spent id) (label : String) :
    (s.expand label id).2 = s := by
  induction id using Nat.strongRecOn generalizing s label with
  | _ id older =>
    obtain ⟨idle, within⟩ := spent
    have members : ((s.composite id).members.foldl (visit label id) ([], s)).2 = s :=
      foldl_visit_of_spent (fun inner lt s label spent => older inner lt spent label) ([], s) within
    rw [expand_eq_visit]
    dsimp only
    rw [members, applyShared_of_idle idle]

/-- What a composite expands to depends on members alone. -/
theorem Later.expand_fst (later : Later s t) (label : String) (id : Nat) :
    (t.expand label id).1 = (s.expand label id).1 := by
  rw [expand_eq, expand_eq, leaves_of_members later.members]

end Store

/-! ## Collecting -/

namespace Collection

open Store (Later)

/-- The step leads to a later store, and from every store that is later still it comes to the same
and leaves the store as it is. -/
def Repeats (s : Store) (step : Store → Logged (Store × Except Fault Collection)) : Prop :=
  Later s (step s).result.1 ∧
    ∀ u, Later (step s).result.1 u → (step u).result = (u, (step s).result.2)

/-- A step that does not touch the store repeats. -/
theorem repeats_of_const {s : Store} {step : Store → Logged (Store × Except Fault Collection)}
    {r : Except Fault Collection} (same : ∀ u, (step u).result = (u, r)) : Repeats s step := by
  constructor
  · rw [same]
    exact .refl s
  · intro u _
    rw [same, same]

theorem repeats_addExport (c : Collection) (s : Store) (unit name : String) (v : Value) :
    Repeats s fun s => c.addExport s unit name v := by
  cases v with
  | composite id =>
    by_cases again : c.expanded.lookup name = some id
    · apply repeats_of_const (r := .ok c)
      intro u
      simp only [addExport, if_pos again]
      rfl
    · have step : ∀ u : Store, (c.addExport u unit name (.composite id)).result =
          ((u.expand name id).2,
            (insertAll unit (some name) ⟨c.entries, (name, id) :: c.expanded⟩
              ((u.expand name id).1.map fun entry => (entry.1, Value.entity entry.2))).result) := by
        intro u
        simp only [addExport, if_neg again]
        rfl
      constructor
      · simp only [step]
        exact Store.later_expand s name id
      · intro u later
        simp only [step] at later ⊢
        have spent := (Store.spent_expand s name id).later later
        have reached := ((Store.later_expand s name id).trans later).expand_fst name id
        rw [Store.expand_of_spent spent, reached]
  | entity id => exact repeats_of_const fun u => rfl
  | output id => exact repeats_of_const fun u => rfl
  | _ => exact repeats_of_const fun u => rfl

/-- Steps one after the other repeat when each of them does. -/
theorem repeats_bind {s : Store} {first : Store → Logged (Store × Except Fault Collection)}
    {next : Collection → Store → Logged (Store × Except Fault Collection)}
    (here : Repeats s first) (rest : ∀ d, Repeats (first s).result.1 (next d)) :
    Repeats s fun s =>
      first s >>= fun
        | (u, .ok d) => next d u
        | refused => pure refused := by
  obtain ⟨later, again⟩ := here
  unfold Repeats
  simp only [Logged.result_bind]
  cases done : (first s).result with
  | mk t r =>
    rw [done] at later again rest
    cases r with
    | ok d =>
      obtain ⟨after, repeated⟩ := rest d
      refine ⟨later.trans after, ?_⟩
      intro u last
      rw [again u (after.trans last)]
      exact repeated u last
    | error fault =>
      refine ⟨later, ?_⟩
      intro u last
      rw [again u last]
      rfl

theorem repeats_addExports (unit : String) (c : Collection) (s : Store)
    (exports : List (String × Value)) : Repeats s fun s => addExports unit c s exports := by
  induction exports generalizing c s with
  | nil => exact repeats_of_const fun u => rfl
  | cons entry rest ih =>
    exact repeats_bind (repeats_addExport c s unit entry.1 entry.2) fun d => ih d _

theorem repeats_addUnits (c : Collection) (s : Store) (units : List LoadedUnit) :
    Repeats s fun s => addUnits c s units := by
  induction units generalizing c s with
  | nil => exact repeats_of_const fun u => rfl
  | cons unit rest ih =>
    exact repeats_bind (repeats_addExports unit.path c s unit.exports) fun d => ih d _

end Collection

namespace Store

variable {s t u : Store}

/-- Collecting the same units again, from any store that is later than the one that the first time
left, comes to the same namespace or the same failure and changes nothing. -/
theorem collect_again {units : List LoadedUnit} {r : Except Fault Namespace}
    (done : (s.collect units).result = (t, r)) (later : Later t u) :
    (u.collect units).result = (u, r) := by
  rw [result_collect] at done
  obtain ⟨rfl, rfl⟩ := Prod.mk.inj done
  have again := (Collection.repeats_addUnits .empty s units).2 u later
  rw [result_collect, again]

end Store
end Infra
