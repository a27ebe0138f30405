import Infra.Proofs.Discovery.Collect
import Infra.Proofs.Named

/-!
# The leaves of a composite

* `Store.Leaf s id path e` : the path of member names leads from a composite to an entity;
* `Store.fullName` : the name of the composite and the path, joined;
* `Store.leaves` : the leaves under their full names, in the order of members;
  `Store.mem_leaves` : they are those that paths lead to;
* `Store.expand_eq` : an expansion is what the leaves leave when they are set one after the other.
-/

namespace Infra
namespace Store

/-- The name of what a path of member names leads to. -/
def fullName (label : String) (path : List String) : String := "_".intercalate (label :: path)

theorem fullName_nil (label : String) : fullName label [] = label := String.intercalate_singleton

theorem fullName_cons (label member : String) (path : List String) :
    fullName label (member :: path) = fullName (label ++ "_" ++ member) path := by
  unfold fullName
  rw [String.intercalate_cons_cons]
  cases path with
  | nil => rw [String.intercalate_singleton, String.intercalate_singleton]
  | cons next rest =>
    rw [String.intercalate_cons_cons, String.intercalate_cons_cons]
    simp only [String.append_assoc]

/-- A path of member names leads from a composite to an entity. A composite is made after its
members, so a member that is a composite is older. -/
inductive Leaf (s : Store) : Nat → List String → Nat → Prop
  | entity {id : Nat} {member : String} {e : Nat} :
    (member, .entity e) ∈ (s.composite id).members → Leaf s id [member] e
  | nested {id : Nat} {member : String} {inner : Nat} {path : List String} {e : Nat} :
    (member, .composite inner) ∈ (s.composite id).members → inner < id → Leaf s inner path e →
      Leaf s id (member :: path) e

/-- The leaves of a composite under their full names, in the order of its members. -/
def leaves (s : Store) (label : String) (id : Nat) : List (String × Nat) :=
  (s.composite id).members.flatMap fun member =>
    match member.2 with
    | .entity e => [(label ++ "_" ++ member.1, e)]
    | .composite inner =>
      if _older : inner < id then leaves s (label ++ "_" ++ member.1) inner else []
termination_by id

variable {s t : Store}

/-- The listed leaves are those that paths lead to. -/
theorem mem_leaves {label full : String} {id e : Nat} :
    (full, e) ∈ s.leaves label id ↔ ∃ path, s.Leaf id path e ∧ full = fullName label path := by
  induction id using Nat.strongRecOn generalizing label with
  | _ id older =>
    rw [leaves, List.mem_flatMap]
    constructor
    · rintro ⟨⟨member, target⟩, mem, inside⟩
      cases target with
      | entity other =>
        obtain ⟨rfl, rfl⟩ := Prod.mk.inj (List.mem_singleton.mp inside)
        exact ⟨[member], .entity mem, by rw [fullName_cons, fullName_nil]⟩
      | composite inner =>
        dsimp only at inside
        split at inside
        · next lt =>
          obtain ⟨path, leaf, eq⟩ := (older inner lt).mp inside
          exact ⟨member :: path, .nested mem lt leaf, by rw [fullName_cons, eq]⟩
        · cases inside
    · rintro ⟨path, leaf, eq⟩
      cases leaf with
      | @entity _ member e mem =>
        refine ⟨(member, .entity e), mem, List.mem_singleton.mpr ?_⟩
        rw [eq, fullName_cons, fullName_nil]
      | @nested _ member inner path e mem lt leaf =>
        refine ⟨(member, .composite inner), mem, ?_⟩
        dsimp only
        rw [dif_pos lt]
        exact (older inner lt).mpr ⟨path, leaf, by rw [eq, fullName_cons]⟩

/-- Leaves depend on the members of composites alone. -/
theorem leaves_of_members (members : ∀ id, (t.composite id).members = (s.composite id).members)
    (label : String) (id : Nat) : t.leaves label id = s.leaves label id := by
  induction id using Nat.strongRecOn generalizing label with
  | _ id older =>
    rw [Store.leaves, Store.leaves, members]
    congr 1
    funext member
    cases member.2 with
    | entity e => rfl
    | composite inner =>
      dsimp only
      split
      · next lt => exact older inner lt _
      · rfl

theorem SameButProps.leaves (same : SameButProps s t) (label : String) (id : Nat) :
    t.leaves label id = s.leaves label id := leaves_of_members same.members label id

/-- An expansion is what the leaves leave when they are set one after the other: a name that is
reached twice keeps its first place and its last entity. -/
theorem expand_eq (s : Store) (label : String) (id : Nat) :
    (s.expand label id).1 = Named.ofList (s.leaves label id) := by
  induction id using Nat.strongRecOn generalizing s label with
  | _ id older =>
    rw [expand_eq_visit, leaves, Named.ofList_eq]
    generalize (s.composite id).members = members
    -- Whatever was expanded before has left the members of composites as they are.
    suffices fold : ∀ reached : List (String × Nat) × Store, (reached.1.map (·.1)).Nodup →
        SameButProps s reached.2 →
        (members.foldl (visit label id) reached).1 = Named.setAll reached.1 (members.flatMap _) from
      fold ([], s) .nil (.refl s)
    induction members with
    | nil => exact fun reached _ _ => rfl
    | cons member rest ih =>
      intro reached nodup same
      obtain ⟨name, target⟩ := member
      rw [List.foldl_cons, List.flatMap_cons, Named.setAll_append]
      unfold visit
      cases target with
      | entity e => exact ih _ (Named.nodup_insert nodup _ _) same
      | composite inner =>
        dsimp only
        split
        · next lt =>
          let nested := reached.2.expand (label ++ "_" ++ name) inner
          have inside : nested.1 = Named.ofList (s.leaves (label ++ "_" ++ name) inner) := by
            rw [← same.leaves]
            exact older inner lt _ _
          have merged : Named.setAll reached.1 nested.1 =
              Named.setAll reached.1 (s.leaves (label ++ "_" ++ name) inner) := by
            rw [inside, Named.setAll_ofList nodup]
          rw [← merged]
          exact ih (_, nested.2) (Named.nodup_setAll nodup _)
            (same.trans (sameButProps_expand _ _ _))
        · exact ih reached nodup same

end Store
end Infra
