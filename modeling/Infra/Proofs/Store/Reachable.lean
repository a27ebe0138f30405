import Infra.Store.Reach

/-!
# Reachable values

* `Store.Reaches s id v` : the properties of the entity `id` lead to `v`, through items of
  sequences, values of mappings and properties of property entities;
* `Store.Reaches.step` : a reachable value makes its contents reachable, and nothing else is
  reachable (`Store.Reaches.mem_of_closed`);
* `Store.reaches_of_mem_reach`, `Store.reaches_iff_mem_reach` : the walk of an entity meets
  reachable values only, and each of them that it need not enter;
* `Store.Within s v w` : the value `v` leads to `w`; `Store.Reaches.within` : what a reachable value
  leads to is reachable.
-/

namespace Infra.Store

/-- What the properties of an entity lead to. Resources, references, outputs, intrinsic values and
composites are reached and not entered. -/
inductive Reaches (s : Store) (id : Nat) : Value → Prop
  | prop {key v : Value} : (key, v) ∈ s.props id → Reaches s id v
  | item {q : Nat} {v : Value} :
    Reaches s id (.sequence q) → v ∈ (s.sequence q).items → Reaches s id v
  | entry {m : Nat} {key v : Value} :
    Reaches s id (.mapping m) → (key, v) ∈ s.mapping m → Reaches s id v
  | nested {e : Nat} {key v : Value} :
    Reaches s id (.entity e) → (s.entity e).kind = .property → (key, v) ∈ s.props e →
      Reaches s id v

variable {s : Store}

/-! ## One step -/

theorem value_of_mem_entrySteps {entries : List (Value × Value)} {q : Place}
    (h : q ∈ entrySteps entries) : ∃ key, (key, q.value) ∈ entries := by
  obtain ⟨entry, mem, rfl⟩ := List.mem_map.mp h
  exact ⟨entry.1, mem⟩

theorem exists_mem_entrySteps {entries : List (Value × Value)} {key v : Value}
    (h : (key, v) ∈ entries) : ∃ q ∈ entrySteps entries, q.value = v :=
  ⟨_, List.mem_map_of_mem h, rfl⟩

theorem value_of_mem_itemSteps {items : List Value} {q : Place} (h : q ∈ itemSteps items) :
    q.value ∈ items := by
  obtain ⟨item, mem, rfl⟩ := List.mem_map.mp h
  exact List.fst_mem_of_mem_zipIdx mem

theorem exists_mem_itemSteps {items : List Value} {v : Value} (h : v ∈ items) :
    ∃ q ∈ itemSteps items, q.value = v := by
  obtain ⟨i, lt, rfl⟩ := List.getElem_of_mem h
  have mem : (items[i], i) ∈ items.zipIdx :=
    List.mk_mem_zipIdx_iff_getElem?.mpr (List.getElem?_eq_getElem lt)
  exact ⟨_, List.mem_map_of_mem mem, rfl⟩

theorem contents_property {e : Nat} (h : (s.entity e).kind = .property) :
    s.contents (.entity e) = entrySteps (s.props e) := by
  simp only [contents, h]

theorem contents_resource {e : Nat} (h : (s.entity e).kind = .resource) :
    s.contents (.entity e) = [] := by
  simp only [contents, h]

theorem Reaches.step {id : Nat} {v : Value} (h : s.Reaches id v) {q : Place}
    (mem : q ∈ s.contents v) : s.Reaches id q.value := by
  match v with
  | .sequence _ => exact .item h (value_of_mem_itemSteps mem)
  | .mapping _ =>
    obtain ⟨key, mem⟩ := value_of_mem_entrySteps mem
    exact .entry h mem
  | .entity e =>
    cases kind : (s.entity e).kind with
    | property =>
      rw [contents_property kind] at mem
      obtain ⟨key, mem⟩ := value_of_mem_entrySteps mem
      exact .nested h kind mem
    | resource =>
      rw [contents_resource kind] at mem
      cases mem
  | .null | .bool _ | .int _ | .float _ | .text _ | .bytes _ | .path _ | .moment _ | .module
  | .function | .reference _ | .output _ | .intrinsic _ | .constructor _ | .definition _
  | .composite _ => cases mem

/-- What holds of the properties of an entity and passes on to contents holds of all that is
reachable. -/
theorem Reaches.mem_of_closed {id : Nat} {P : Value → Prop}
    (base : ∀ q ∈ entrySteps (s.props id), P q.value)
    (closed : ∀ v, P v → ∀ q ∈ s.contents v, P q.value) {v : Value} (h : s.Reaches id v) : P v := by
  induction h with
  | prop mem =>
    obtain ⟨q, onStep, rfl⟩ := exists_mem_entrySteps mem
    exact base q onStep
  | item _ mem ih =>
    obtain ⟨q, onStep, rfl⟩ := exists_mem_itemSteps mem
    exact closed _ ih q onStep
  | entry _ mem ih =>
    obtain ⟨q, onStep, rfl⟩ := exists_mem_entrySteps mem
    exact closed _ ih q onStep
  | nested _ kind mem ih =>
    obtain ⟨q, onStep, rfl⟩ := exists_mem_entrySteps mem
    exact closed _ ih q (by rwa [contents_property kind])

/-! ## The walk -/

/-- The walk meets nothing but what its places lead to. -/
theorem forall_mem_reachFrom {P : Value → Prop}
    (closed : ∀ v, P v → ∀ q ∈ s.contents v, P q.value) (entered : List Value)
    (places : List Place) (base : ∀ p ∈ places, P p.value) :
    ∀ p ∈ s.reachFrom entered places, P p.value := by
  induction entered, places using reachFrom.induct (s := s) with
  | case1 entered =>
    intro p mem
    rw [reachFrom] at mem
    cases mem
  | case2 entered p rest leaf ih =>
    intro q mem
    rw [reachFrom, dif_pos leaf] at mem
    rcases List.mem_cons.mp mem with rfl | mem
    · exact base _ List.mem_cons_self
    · exact ih (fun r later => base r (List.mem_cons_of_mem _ later)) q mem
  | case3 entered p rest inner again ih =>
    intro q mem
    rw [reachFrom, dif_neg inner, dif_pos again] at mem
    exact ih (fun r later => base r (List.mem_cons_of_mem _ later)) q mem
  | case4 entered p rest inner new ih =>
    intro q mem
    rw [reachFrom, dif_neg inner, dif_neg new] at mem
    have here : P p.value := base _ List.mem_cons_self
    rcases List.mem_cons.mp mem with rfl | mem
    · exact here
    · refine ih (fun r either => ?_) q mem
      rcases List.mem_append.mp either with inside | later
      · obtain ⟨content, mem, rfl⟩ := List.mem_map.mp inside
        exact closed _ here content mem
      · exact base r (List.mem_cons_of_mem _ later)

/-- A walk has met a value, or knows it as one that was entered before. -/
def Met (s : Store) (entered : List Value) (places : List Place) (v : Value) : Prop :=
  (∃ p ∈ s.reachFrom entered places, p.value = v) ∨ (v ∈ entered ∧ s.contents v ≠ [])

/-- The walk meets its places, and the contents of all that it meets. -/
theorem met_reachFrom (entered : List Value) (places : List Place) :
    (∀ p ∈ places, s.Met entered places p.value) ∧
      ∀ p ∈ s.reachFrom entered places, ∀ q ∈ s.contents p.value, s.Met entered places q.value := by
  induction entered, places using reachFrom.induct (s := s) with
  | case1 entered =>
    refine ⟨by simp, fun p mem => ?_⟩
    rw [reachFrom] at mem
    cases mem
  | case2 entered p rest leaf ih =>
    have walk : s.reachFrom entered (p :: rest) = p :: s.reachFrom entered rest := by
      rw [reachFrom, dif_pos leaf]
    have more : ∀ v, s.Met entered rest v → s.Met entered (p :: rest) v := fun v met =>
      met.imp_left fun ⟨r, mem, eq⟩ => ⟨r, walk ▸ List.mem_cons_of_mem p mem, eq⟩
    refine ⟨fun r mem => ?_, fun r mem q content => ?_⟩
    · rcases List.mem_cons.mp mem with rfl | later
      · exact .inl ⟨r, walk ▸ List.mem_cons_self, rfl⟩
      · exact more _ (ih.1 r later)
    · rw [walk] at mem
      rcases List.mem_cons.mp mem with rfl | later
      · rw [leaf] at content
        cases content
      · exact more _ (ih.2 r later q content)
  | case3 entered p rest inner again ih =>
    have walk : s.reachFrom entered (p :: rest) = s.reachFrom entered rest := by
      rw [reachFrom, dif_neg inner, dif_pos again]
    have more : ∀ v, s.Met entered rest v → s.Met entered (p :: rest) v := fun v met =>
      met.imp_left fun ⟨r, mem, eq⟩ => ⟨r, walk ▸ mem, eq⟩
    refine ⟨fun r mem => ?_, fun r mem q content => more _ (ih.2 r (walk ▸ mem) q content)⟩
    rcases List.mem_cons.mp mem with rfl | later
    · exact .inr ⟨by simpa using again, inner⟩
    · exact more _ (ih.1 r later)
  | case4 entered p rest inner new ih =>
    have walk : s.reachFrom entered (p :: rest) = p :: s.reachFrom (p.value :: entered)
        ((s.contents p.value).map (Place.extend p) ++ rest) := by
      rw [reachFrom, dif_neg inner, dif_neg new]
    have here : s.Met entered (p :: rest) p.value := .inl ⟨p, walk ▸ List.mem_cons_self, rfl⟩
    have more : ∀ v,
        s.Met (p.value :: entered) ((s.contents p.value).map (Place.extend p) ++ rest) v →
          s.Met entered (p :: rest) v := by
      intro v met
      rcases met with ⟨r, mem, eq⟩ | ⟨before, inner⟩
      · exact .inl ⟨r, walk ▸ List.mem_cons_of_mem p mem, eq⟩
      · rcases List.mem_cons.mp before with rfl | before
        · exact here
        · exact .inr ⟨before, inner⟩
    refine ⟨fun r mem => ?_, fun r mem q content => ?_⟩
    · rcases List.mem_cons.mp mem with rfl | later
      · exact here
      · exact more _ (ih.1 r (List.mem_append_right _ later))
    · rw [walk] at mem
      rcases List.mem_cons.mp mem with rfl | later
      · have inside := List.mem_append_left rest (List.mem_map_of_mem (f := Place.extend r) content)
        exact more _ (ih.1 (Place.extend r q) inside)
      · exact more _ (ih.2 r later q content)

/-! ## The walk of an entity -/

theorem reaches_of_mem_reach {id : Nat} {p : Place} (h : p ∈ s.reach id) :
    s.Reaches id p.value := by
  refine forall_mem_reachFrom (fun v reaches q mem => reaches.step mem) _ _ (fun q mem => ?_) p h
  obtain ⟨key, mem⟩ := value_of_mem_entrySteps mem
  exact .prop mem

/-- A value without contents is reachable exactly when the walk meets it. -/
theorem reaches_iff_mem_reach {id : Nat} {v : Value} (leaf : s.contents v = []) :
    s.Reaches id v ↔ ∃ p ∈ s.reach id, p.value = v := by
  refine ⟨fun h => ?_, fun ⟨p, mem, eq⟩ => eq ▸ reaches_of_mem_reach mem⟩
  obtain ⟨base, inner⟩ := met_reachFrom (s := s) [.entity id] (entrySteps (s.props id))
  have met : s.Met [.entity id] (entrySteps (s.props id)) v := by
    refine h.mem_of_closed base fun w met q mem => ?_
    rcases met with ⟨p, onWalk, rfl⟩ | ⟨root, enters⟩
    · exact inner p onWalk q mem
    · -- The entity met again is not entered, and holds what the walk began with.
      obtain rfl := List.mem_singleton.mp root
      cases kind : (s.entity id).kind with
      | property => exact base q (by rwa [contents_property kind] at mem)
      | resource => exact absurd (contents_resource kind) enters
  rcases met with onWalk | ⟨-, enters⟩
  · exact onWalk
  · exact absurd leaf enters

/-! ## What a value leads to -/

/-- What a value leads to: itself, and the contents of all that it leads to. -/
inductive Within (s : Store) (v : Value) : Value → Prop
  | self : Within s v v
  | inside {w : Value} {q : Place} : Within s v w → q ∈ s.contents w → Within s v q.value

theorem Within.of_content {v w : Value} {q : Place} (mem : q ∈ s.contents v)
    (h : s.Within q.value w) : s.Within v w := by
  induction h with
  | self => exact .inside .self mem
  | inside _ more ih => exact .inside ih more

theorem Within.eq_of_leaf {v w : Value} (leaf : s.contents v = []) (h : s.Within v w) : w = v := by
  induction h with
  | self => rfl
  | inside _ mem ih =>
    rw [ih, leaf] at mem
    cases mem

theorem Reaches.within {id : Nat} {v w : Value} (h : s.Reaches id v) (k : s.Within v w) :
    s.Reaches id w := by
  induction k with
  | self => exact h
  | inside _ mem ih => exact ih.step mem

end Infra.Store
