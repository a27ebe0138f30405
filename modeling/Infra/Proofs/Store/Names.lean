import Infra.Proofs.Store.Reachable

/-!
# Stores that differ in names alone

* `Store.SameButNames s t` : `t` is `s` but for the names of entities and references;
* `SameButNames.nameEntity`, `SameButNames.nameReference` : naming makes no other difference;
* `SameButNames.contents`, `SameButNames.reachFrom`, `SameButNames.reaches` : walks do not depend on
  names.
-/

namespace Infra

/-- An entity without its name. -/
def Entity.nameless (e : Entity) : Entity := { e with name := none }

/-- A reference without its name. -/
def Reference.nameless (r : Reference) : Reference := { r with name := none }

namespace Store

/-- The second store is the first but for the names of entities and references. -/
structure SameButNames (s t : Store) : Prop where
  sequences : t.sequences = s.sequences
  mappings : t.mappings = s.mappings
  entityCount : t.entities.size = s.entities.size
  entities : ∀ id, (t.entity id).nameless = (s.entity id).nameless
  referenceCount : t.references.size = s.references.size
  references : ∀ id, (t.reference id).nameless = (s.reference id).nameless
  outputs : t.outputs = s.outputs
  intrinsics : t.intrinsics = s.intrinsics
  constructors : t.constructors = s.constructors
  definitions : t.definitions = s.definitions
  composites : t.composites = s.composites
  registered : t.registered = s.registered

namespace SameButNames

variable {s t u : Store}

theorem refl (s : Store) : SameButNames s s :=
  ⟨rfl, rfl, rfl, fun _ => rfl, rfl, fun _ => rfl, rfl, rfl, rfl, rfl, rfl, rfl⟩

theorem trans (h : SameButNames s t) (k : SameButNames t u) : SameButNames s u where
  sequences := k.sequences.trans h.sequences
  mappings := k.mappings.trans h.mappings
  entityCount := k.entityCount.trans h.entityCount
  entities id := (k.entities id).trans (h.entities id)
  referenceCount := k.referenceCount.trans h.referenceCount
  references id := (k.references id).trans (h.references id)
  outputs := k.outputs.trans h.outputs
  intrinsics := k.intrinsics.trans h.intrinsics
  constructors := k.constructors.trans h.constructors
  definitions := k.definitions.trans h.definitions
  composites := k.composites.trans h.composites
  registered := k.registered.trans h.registered

theorem nameEntity (s : Store) (id : Nat) (name : String) :
    SameButNames s (s.nameEntity id name) := by
  refine { refl s with entityCount := Table.size_modify _ _ _, entities := fun other => ?_ }
  show ((s.entities.modify id _).get other).nameless = _
  rw [Table.get_modify]
  split <;> rfl

theorem nameReference (s : Store) (id : Nat) (name : String) :
    SameButNames s (s.nameReference id name) := by
  refine { refl s with referenceCount := Table.size_modify _ _ _, references := fun other => ?_ }
  show ((s.references.modify id _).get other).nameless = _
  rw [Table.get_modify]
  split <;> rfl

/-! ## What does not depend on names -/

theorem kind (h : SameButNames s t) (id : Nat) : (t.entity id).kind = (s.entity id).kind := by
  have eq := congrArg Entity.kind (h.entities id)
  exact eq

theorem accessors (h : SameButNames s t) (id : Nat) :
    (t.entity id).accessors = (s.entity id).accessors := by
  have eq := congrArg Entity.accessors (h.entities id)
  exact eq

theorem parent (h : SameButNames s t) (id : Nat) :
    (t.reference id).parent = (s.reference id).parent := by
  have eq := congrArg Reference.parent (h.references id)
  exact eq

/-- A reference with the same name is the same. -/
theorem reference_eq (h : SameButNames s t) {ref : Nat}
    (name : (t.reference ref).name = (s.reference ref).name) : t.reference ref = s.reference ref := by
  have rest := h.references ref
  unfold Reference.nameless at rest
  calc
    t.reference ref = { { t.reference ref with name := none } with
        name := (t.reference ref).name } := rfl
    _ = { { s.reference ref with name := none } with name := (s.reference ref).name } := by
      rw [rest, name]
    _ = s.reference ref := rfl

theorem mapping (h : SameButNames s t) (id : Nat) : t.mapping id = s.mapping id := by
  unfold Store.mapping
  rw [h.mappings]

theorem sequence (h : SameButNames s t) (id : Nat) : t.sequence id = s.sequence id := by
  unfold Store.sequence
  rw [h.sequences]

theorem props (h : SameButNames s t) (id : Nat) : t.props id = s.props id := by
  have bag : (t.entity id).props = (s.entity id).props := by
    have eq := congrArg Entity.props (h.entities id)
    exact eq
  unfold Store.props
  rw [bag, h.mapping]

theorem contents (h : SameButNames s t) (v : Value) : t.contents v = s.contents v := by
  unfold Store.contents
  cases v with
  | sequence id => simp only [h.sequence]
  | mapping id => simp only [h.mapping]
  | entity id => simp only [h.kind, h.props]
  | _ => rfl

theorem reachFrom (h : SameButNames s t) (entered : List Value) (places : List Place) :
    t.reachFrom entered places = s.reachFrom entered places := by
  induction entered, places using Store.reachFrom.induct (s := s) with
  | case1 entered => rw [Store.reachFrom, Store.reachFrom]
  | case2 entered p rest leaf ih =>
    rw [Store.reachFrom, dif_pos (by rwa [h.contents]), Store.reachFrom, dif_pos leaf, ih]
  | case3 entered p rest inner again ih =>
    rw [Store.reachFrom, dif_neg (by rwa [h.contents]), dif_pos again, Store.reachFrom,
      dif_neg inner, dif_pos again, ih]
  | case4 entered p rest inner new ih =>
    rw [Store.reachFrom, dif_neg (by rwa [h.contents]), dif_neg new, Store.reachFrom,
      dif_neg inner, dif_neg new, h.contents, ih]

theorem reach (h : SameButNames s t) (id : Nat) : t.reach id = s.reach id := by
  unfold Store.reach
  rw [h.reachFrom, h.props]

/-- What is reachable stays so, whatever has been named. -/
theorem reaches (h : SameButNames s t) {id : Nat} {v : Value} (reaches : s.Reaches id v) :
    t.Reaches id v := by
  induction reaches with
  | prop mem => exact .prop (by rwa [h.props])
  | item _ mem ih => exact .item ih (by rwa [h.sequence])
  | entry _ mem ih => exact .entry ih (by rwa [h.mapping])
  | nested _ kind mem ih => exact .nested ih (by rwa [h.kind]) (by rwa [h.props])

theorem symm (h : SameButNames s t) : SameButNames t s where
  sequences := h.sequences.symm
  mappings := h.mappings.symm
  entityCount := h.entityCount.symm
  entities id := (h.entities id).symm
  referenceCount := h.referenceCount.symm
  references id := (h.references id).symm
  outputs := h.outputs.symm
  intrinsics := h.intrinsics.symm
  constructors := h.constructors.symm
  definitions := h.definitions.symm
  composites := h.composites.symm
  registered := h.registered.symm

end SameButNames
end Store
end Infra
