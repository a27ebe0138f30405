import Infra.Discovery.Collect
import Infra.Proofs.Store.Accessors
import Mathlib.Data.List.Nodup

/-!
# What collecting gives

* `Store.SameButProps s t` : the entities of `t` are those of `s` but for their properties, and the
  composites have the same members;
* `Store.expand_relates` : an expansion relates stores as the merging of shared properties does;
  `Store.sameButProps_expand` : so it changes properties alone;
* `Collection.Sound` : different entries of a collection have different names and values;
* `Store.collect_spec` : so it is for a collected namespace;
* `Store.sameButProps_collect` : collecting changes properties alone, also where it is refused.
-/

namespace Infra

namespace Store

/-- The entities of both stores are the same in number and have the same names and accessors, the
references are the same, and the composites have the same members. -/
structure SameButProps (s t : Store) : Prop where
  entityCount : t.entities.size = s.entities.size
  name : ∀ id, (t.entity id).name = (s.entity id).name
  accessors : ∀ id, (t.entity id).accessors = (s.entity id).accessors
  references : t.references = s.references
  members : ∀ id, (t.composite id).members = (s.composite id).members

variable {s t u : Store}

theorem SameButProps.refl (s : Store) : SameButProps s s :=
  ⟨rfl, fun _ => rfl, fun _ => rfl, rfl, fun _ => rfl⟩

theorem SameButProps.trans (h : SameButProps s t) (k : SameButProps t u) : SameButProps s u where
  entityCount := k.entityCount.trans h.entityCount
  name id := (k.name id).trans (h.name id)
  accessors id := (k.accessors id).trans (h.accessors id)
  references := k.references.trans h.references
  members id := (k.members id).trans (h.members id)

theorem SameButProps.ownsAccessors (same : SameButProps s t) (h : s.OwnsAccessors) :
    t.OwnsAccessors := by
  intro id own mem
  rw [same.accessors] at mem
  have parent := h id own mem
  unfold reference at parent ⊢
  rwa [same.references]

theorem sameButProps_setProps (s : Store) (id : Nat) (entries : List (Value × Value)) :
    SameButProps s (s.setProps id entries) := by
  refine ⟨Table.size_modify _ _ _, fun other => ?_, fun other => ?_, rfl, fun _ => rfl⟩
  · show ((s.entities.modify id _).get other).name = _
    rw [Table.get_modify]
    split <;> rfl
  · show ((s.entities.modify id _).get other).accessors = _
    rw [Table.get_modify]
    split <;> rfl

theorem sameButProps_mergeEntry (merged : List (Value × Value) × Store) (entry : Value × Value) :
    SameButProps merged.2 (mergeEntry merged entry).2 := by
  unfold mergeEntry
  dsimp only
  split
  · exact .refl _
  · split <;> exact ⟨rfl, fun _ => rfl, fun _ => rfl, rfl, fun _ => rfl⟩

theorem sameButProps_mergeShared (s : Store) (shared : List (String × Value))
    (own : List (Value × Value)) : SameButProps s (mergeShared s shared own).2 := by
  unfold mergeShared
  have fold : ∀ (merged : List (Value × Value) × Store),
      SameButProps merged.2 (own.foldl mergeEntry merged).2 := by
    induction own with
    | nil => exact fun merged => .refl _
    | cons entry rest ih => exact fun merged => (sameButProps_mergeEntry merged entry).trans (ih _)
  exact fold (_, s)

theorem sameButProps_share (shared : List (String × Value)) (s : Store) (entity : Nat) :
    SameButProps s (share shared s entity) :=
  (sameButProps_mergeShared s shared (s.props entity)).trans (sameButProps_setProps _ _ _)

theorem sameButProps_setApplied (s : Store) (id : Nat) (applied : Bool) :
    SameButProps s (s.setApplied id applied) := by
  refine ⟨rfl, fun _ => rfl, fun _ => rfl, rfl, fun other => ?_⟩
  show ((s.composites.modify id _).get other).members = _
  rw [Table.get_modify]
  split <;> rfl

theorem sameButProps_applyShared (s : Store) (id : Nat) (entities : List Nat) :
    SameButProps s (s.applyShared id entities) := by
  have fold : ∀ (shared : List (String × Value)) (s : Store),
      SameButProps s (entities.foldl (share shared) s) := by
    intro shared
    induction entities with
    | nil => exact SameButProps.refl
    | cons entity rest ih => exact fun s => (sameButProps_share shared s entity).trans (ih _)
  unfold applyShared
  dsimp only
  split
  · exact .refl s
  · exact .refl s
  · split
    · exact .refl s
    · exact (fold _ s).trans (sameButProps_setApplied _ _ _)

/-- What the expansion of a composite does at one of its members: an entity is set under its full
name, and a composite is expanded and its entities are set. -/
def visit (label : String) (id : Nat) (reached : List (String × Nat) × Store)
    (member : String × Member) : List (String × Nat) × Store :=
  match member.2 with
  | .entity e => (Named.insert reached.1 (label ++ "_" ++ member.1) e, reached.2)
  | .composite inner =>
    if inner < id then
      let nested := reached.2.expand (label ++ "_" ++ member.1) inner
      (nested.1.foldl (fun all entry => Named.insert all entry.1 entry.2) reached.1, nested.2)
    else reached

/-- An expansion visits the members, and then applies what they share. -/
theorem expand_eq_visit (s : Store) (label : String) (id : Nat) :
    s.expand label id =
      let reached := (s.composite id).members.foldl (visit label id) ([], s)
      (reached.1, reached.2.applyShared id (reached.1.map (·.2))) := by
  rw [expand]
  rfl

section Relation

variable {R : Store → Store → Prop} (refl : ∀ s, R s s)
  (trans : ∀ {s t u}, R s t → R t u → R s u)

include refl trans

theorem foldl_visit_relates {label : String} {id : Nat}
    (older : ∀ inner < id, ∀ s label, R s (s.expand label inner).2)
    (members : List (String × Member)) (reached : List (String × Nat) × Store) :
    R reached.2 (members.foldl (visit label id) reached).2 := by
  induction members generalizing reached with
  | nil => exact refl _
  | cons member rest ih =>
    rw [List.foldl_cons]
    apply trans ?_ (ih _)
    unfold visit
    split
    · exact refl _
    · split
      · next lt => exact older _ lt _ _
      · exact refl _

/-- An expansion relates stores as the merging of shared properties does. -/
theorem expand_relates (shares : ∀ s id entities, R s (applyShared s id entities)) (s : Store)
    (label : String) (id : Nat) : R s (s.expand label id).2 := by
  induction id using Nat.strongRecOn generalizing s label with
  | _ id older =>
    rw [expand_eq_visit]
    let reached := (s.composite id).members.foldl (visit label id) ([], s)
    have members : R s reached.2 := foldl_visit_relates refl trans older _ ([], s)
    exact trans members (shares _ _ _)

end Relation

/-- The expansion of a composite changes no more than properties. -/
theorem sameButProps_expand (s : Store) (label : String) (id : Nat) :
    SameButProps s (s.expand label id).2 :=
  expand_relates SameButProps.refl SameButProps.trans sameButProps_applyShared s label id

end Store

namespace Collection

open Store (SameButProps)

/-- Different entries of a collection have different names and different values. -/
structure Sound (c : Collection) : Prop where
  names : (c.entries.map (·.1)).Nodup
  values : (c.entries.map (·.2)).Nodup

theorem sound_empty : Sound .empty := ⟨.nil, .nil⟩

theorem Sound.insert {c d : Collection} (h : c.Sound) {name unit : String} {v : Value}
    {origin : Option String} (done : (c.insert name v unit origin).result = .ok d) : d.Sound := by
  unfold Collection.insert at done
  split at done
  · split at done
    · cases done
      exact h
    · cases done
  · next free =>
    split at done
    · cases done
      exact h
    · next unnamed =>
      cases done
      have name_new : name ∉ c.entries.map (·.1) := by
        intro mem
        obtain ⟨entry, inside, rfl⟩ := List.mem_map.mp mem
        have other := List.lookup_eq_none_iff.mp free entry inside
        simp at other
      have value_new : v ∉ c.entries.map (·.2) := by
        intro mem
        obtain ⟨entry, inside, rfl⟩ := List.mem_map.mp mem
        have other := List.find?_eq_none.mp (Option.map_eq_none_iff.mp unnamed) entry inside
        simp at other
      constructor
      · simpa using h.names.concat name_new
      · simpa using h.values.concat value_new

theorem Sound.insertAll {c d : Collection} (h : c.Sound) {unit : String} {origin : Option String}
    {claims : List (String × Value)} (done : (insertAll unit origin c claims).result = .ok d) :
    d.Sound := by
  induction claims generalizing c with
  | nil =>
    cases done
    exact h
  | cons claim rest ih =>
    rw [Collection.insertAll, Logged.result_bind] at done
    cases first : (c.insert claim.1 claim.2 unit origin).result with
    | ok e =>
      rw [first] at done
      exact ih (h.insert first) done
    | error fault =>
      rw [first] at done
      cases done

/-- What a step of collecting keeps: entities but for their properties, and that the collection is
sound. -/
def Kept (s : Store) (c : Collection) (r : Store × Except Fault Collection) : Prop :=
  SameButProps s r.1 ∧ ∀ d, r.2 = .ok d → c.Sound → d.Sound

theorem kept_addExport (c : Collection) (s : Store) (unit name : String) (v : Value) :
    Kept s c (c.addExport s unit name v).result := by
  unfold addExport
  split
  · next id =>
    split
    · exact ⟨.refl s, fun d done h => by cases done; exact h⟩
    · refine ⟨Store.sameButProps_expand s name id, fun d done h => ?_⟩
      exact Sound.insertAll (c := ⟨c.entries, (name, id) :: c.expanded⟩) ⟨h.names, h.values⟩ done
  · split
    · exact ⟨.refl s, fun d done h => h.insert done⟩
    · exact ⟨.refl s, fun d done h => by cases done; exact h⟩

theorem kept_bind {s : Store} {c : Collection} {first : Logged (Store × Except Fault Collection)}
    {next : Collection → Store → Logged (Store × Except Fault Collection)}
    (here : Kept s c first.result) (rest : ∀ d, Kept first.result.1 d (next d first.result.1).result) :
    Kept s c
      (first >>= fun
        | (u, .ok d) => next d u
        | refused => pure refused).result := by
  rw [Logged.result_bind]
  obtain ⟨same, sound⟩ := here
  cases done : first.result with
  | mk u r =>
    rw [done] at same sound rest
    cases r with
    | ok d => exact ⟨same.trans (rest d).1, fun e ended h => (rest d).2 e ended (sound d rfl h)⟩
    | error fault => exact ⟨same, fun e ended => by cases ended⟩

theorem kept_addExports (unit : String) (c : Collection) (s : Store)
    (exports : List (String × Value)) : Kept s c (addExports unit c s exports).result := by
  induction exports generalizing c s with
  | nil => exact ⟨.refl s, fun d done h => by cases done; exact h⟩
  | cons entry rest ih =>
    exact kept_bind (kept_addExport c s unit entry.1 entry.2) fun d => ih d _

theorem kept_addUnits (c : Collection) (s : Store) (units : List LoadedUnit) :
    Kept s c (addUnits c s units).result := by
  induction units generalizing c s with
  | nil => exact ⟨.refl s, fun d done h => by cases done; exact h⟩
  | cons unit rest ih =>
    exact kept_bind (kept_addExports unit.path c s unit.exports) fun d => ih d _

end Collection

namespace Store

theorem result_collect (s : Store) (units : List LoadedUnit) :
    (s.collect units).result =
      ((Collection.addUnits .empty s units).result.1,
        (Collection.addUnits .empty s units).result.2.map (·.entries)) := by
  rw [collect, Logged.result_bind]
  cases (Collection.addUnits .empty s units).result with
  | mk t r => cases r <;> rfl

/-- A namespace is that of a sound collection; where there is none, no more than properties has
changed either. -/
theorem kept_collect (s : Store) (units : List LoadedUnit) :
    SameButProps s (s.collect units).result.1 ∧ ∀ n, (s.collect units).result.2 = .ok n →
      (n.map (·.1)).Nodup ∧ (n.map (·.2)).Nodup := by
  obtain ⟨same, sound⟩ := Collection.kept_addUnits .empty s units
  rw [result_collect]
  refine ⟨same, ?_⟩
  intro n done
  cases last : (Collection.addUnits .empty s units).result.2 with
  | error fault =>
    rw [last] at done
    cases done
  | ok c =>
    rw [last] at done
    obtain rfl := Except.ok.inj done
    have kept := sound c last Collection.sound_empty
    exact ⟨kept.names, kept.values⟩

/-- Collecting changes no more than properties. -/
theorem sameButProps_collect (s : Store) (units : List LoadedUnit) :
    SameButProps s (s.collect units).result.1 := (kept_collect s units).1

/-- A collected namespace repeats neither names nor values. -/
theorem collect_spec {s t : Store} {units : List LoadedUnit} {n : Namespace}
    (done : (s.collect units).result = (t, .ok n)) :
    (n.map (·.1)).Nodup ∧ (n.map (·.2)).Nodup :=
  (kept_collect s units).2 n (congrArg Prod.snd done)

end Store
end Infra
