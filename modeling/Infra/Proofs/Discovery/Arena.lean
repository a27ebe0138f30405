import Infra.Namespace
import Mathlib.Data.List.Nodup

/-!
# What an arena knows

* `handle_inj` : different entities have different handles;
* `Namespace.mem_entities` : the entities of a namespace are its values that are entities;
* `Arena.entry?_ofNamespace` : the arena of a namespace finds the first entity with a handle;
* `Arena.nameOf?_eq_none_iff` : it does not know the handles that no entity there has;
* `Arena.entry?_eq_some_iff` : without repetitions it knows each entity by its own name.
-/

namespace Infra

@[simp] theorem Store.handle_inj {i j : Nat} : handle i = handle j ↔ i = j := by
  unfold handle
  omega

theorem lookup_eq_some_iff_mem {α : Type} {entries : List (String × α)} {key : String} {a : α}
    (keys : (entries.map (·.1)).Nodup) : entries.lookup key = some a ↔ (key, a) ∈ entries := by
  induction entries with
  | nil => simp
  | cons head rest ih =>
    obtain ⟨other, b⟩ := head
    obtain ⟨fresh, keys⟩ := List.nodup_cons.mp keys
    rw [List.lookup_cons, List.mem_cons, Prod.mk.injEq]
    by_cases eq : key = other
    · subst eq
      have absent : (key, a) ∉ rest := fun mem => fresh (List.mem_map_of_mem (f := (·.1)) mem)
      simp [absent, eq_comm]
    · rw [beq_eq_false_iff_ne.mpr eq]
      simp [eq, ih keys]

theorem lookup_eq_none_iff_not_mem {α β : Type} [BEq α] [LawfulBEq α] {entries : List (α × β)}
    {key : α} : entries.lookup key = none ↔ key ∉ entries.map (·.1) := by
  rw [List.lookup_eq_none_iff]
  simp only [bne_iff_ne, List.mem_map, not_exists, not_and]
  exact forall₂_congr fun entry _ => ne_comm

namespace Namespace

theorem mem_entities {n : Namespace} {name : String} {id : Nat} :
    (name, id) ∈ n.entities ↔ (name, .entity id) ∈ n := by
  unfold entities
  rw [List.mem_filterMap]
  constructor
  · rintro ⟨⟨other, v⟩, mem, eq⟩
    cases v <;> cases eq
    exact mem
  · intro mem
    exact ⟨_, mem, rfl⟩

theorem entities_names_sublist (n : Namespace) :
    (n.entities.map (·.1)).Sublist (n.map (·.1)) := by
  induction n with
  | nil => exact .slnil
  | cons head rest ih =>
    obtain ⟨name, v⟩ := head
    cases v
    case entity id => exact ih.cons_cons name
    all_goals exact ih.cons name

theorem entities_nodup {n : Namespace} (values : (n.map (·.2)).Nodup) :
    (n.entities.map (·.2)).Nodup := by
  have sublist : ((n.entities.map (·.2)).map Value.entity).Sublist (n.map (·.2)) := by
    clear values
    induction n with
    | nil => exact .slnil
    | cons head rest ih =>
      obtain ⟨name, v⟩ := head
      cases v
      case entity id => exact ih.cons_cons (.entity id)
      all_goals exact ih.cons _
  exact (sublist.nodup values).of_map

end Namespace

namespace Arena

open Store (handle)

theorem entry?_add_of_some {a : Arena} {h : Int} {entry : String × Nat}
    (known : a.entry? h = some entry) (name : String) (id : Nat) :
    Arena.entry? (a.add name id) h = some entry := by
  unfold add
  split
  · exact known
  · unfold entry? at known ⊢
    rw [List.find?_append, known, Option.some_or]

/-- A handle that an arena does not know is that of the added entity, or stays unknown. -/
theorem entry?_add_of_none {a : Arena} {h : Int} (unknown : a.entry? h = none) (name : String)
    (id : Nat) :
    Arena.entry? (a.add name id) h = [(name, id)].find? fun entry => handle entry.2 == h := by
  unfold add
  split
  · next entry known =>
    have other : handle id ≠ h := by
      rintro rfl
      rw [unknown] at known
      cases known
    simpa [other] using unknown
  · unfold entry? at unknown ⊢
    rw [List.find?_append, unknown, Option.none_or]

theorem entry?_foldl_add_of_some {h : Int} {entry : String × Nat} (entries : List (String × Nat))
    {a : Arena} (known : a.entry? h = some entry) :
    Arena.entry? (entries.foldl (fun a entry => a.add entry.1 entry.2) a) h = some entry := by
  induction entries generalizing a with
  | nil => exact known
  | cons head rest ih => exact ih (entry?_add_of_some known head.1 head.2)

theorem entry?_foldl_add_of_none {h : Int} (entries : List (String × Nat)) {a : Arena}
    (unknown : a.entry? h = none) :
    Arena.entry? (entries.foldl (fun a entry => a.add entry.1 entry.2) a) h =
      entries.find? fun entry => handle entry.2 == h := by
  induction entries generalizing a with
  | nil => exact unknown
  | cons head rest ih =>
    have added := entry?_add_of_none unknown head.1 head.2
    rw [List.foldl_cons]
    by_cases eq : handle head.2 = h
    · rw [List.find?_cons_of_pos (by simp [eq])] at added ⊢
      exact entry?_foldl_add_of_some rest added
    · rw [List.find?_cons_of_neg (by simp [eq])] at added ⊢
      exact ih added

/-- The arena of a namespace finds the first of its entities that has the handle. -/
theorem entry?_ofNamespace (n : Namespace) (h : Int) :
    Arena.entry? (ofNamespace n) h = n.entities.find? fun entry => handle entry.2 == h :=
  entry?_foldl_add_of_none n.entities rfl

theorem nameOf?_eq_none_iff {n : Namespace} {h : Int} :
    (ofNamespace n).nameOf? h = none ↔ ∀ name id, (name, id) ∈ n.entities → handle id ≠ h := by
  unfold nameOf?
  rw [entry?_ofNamespace, Option.map_eq_none_iff, List.find?_eq_none]
  simp

/-- In a namespace that does not repeat an entity, the arena finds each by its handle and under
its name. -/
theorem entry?_eq_some_iff {n : Namespace} (once : (n.entities.map (·.2)).Nodup) {h : Int}
    {name : String} {id : Nat} :
    Arena.entry? (ofNamespace n) h = some (name, id) ↔ (name, id) ∈ n.entities ∧ handle id = h := by
  rw [entry?_ofNamespace]
  constructor
  · intro found
    have has := List.find?_some found
    exact ⟨List.mem_of_find?_eq_some found, by simpa using has⟩
  · rintro ⟨mem, rfl⟩
    cases found : n.entities.find? fun entry => handle entry.2 == handle id with
    | none => exact absurd mem (by simpa using List.find?_eq_none.mp found (name, id))
    | some entry =>
      have same : entry.2 = id := by simpa using List.find?_some found
      have inside := List.mem_of_find?_eq_some found
      exact congrArg some (List.inj_on_of_nodup_map once inside mem same)

end Arena
end Infra
