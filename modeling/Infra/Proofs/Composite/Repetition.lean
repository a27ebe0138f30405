import Infra.Proofs.Composite.Tree

/-!
# Expanding again

The first expansion of a composite has everything shared that was to be shared, so that a second one
finds nothing to do, whatever happens in between, unless properties are propagated again.

* `Store.composite_expand_of_idle` : an expansion leaves idle composites as they are;
* `Store.Spent.of_kept`, `Store.leaves_of_kept` : what is spent, and what the leaves are, depends on
  the composites that an expansion comes to;
* `Store.expand_again` : another expansion gives the same entities under the other name, and leaves
  the store as it is.
-/

namespace Infra
namespace Store

variable {s t u : Store} {id : Nat}

/-! ## What an expansion leaves -/

theorem composite_applyShared_of_idle {c : Nat} (idle : s.Idle c) (id : Nat)
    (entities : List Nat) : (s.applyShared id entities).composite c = s.composite c := by
  by_cases here : s.Idle id
  · rw [applyShared_of_idle here]
  · have other : id ≠ c := fun same => here (same ▸ idle)
    have pending : (s.composite id).applied = false :=
      Bool.eq_false_iff.mpr fun applied => here (.inl applied)
    have filled : s.sharedOf id ≠ [] := fun none => here (.inr none)
    rw [applyShared_of_pending pending filled, composite_setApplied,
      if_neg fun both => other both.1]
    unfold composite
    rw [composites_foldl_share]

theorem composite_expand_of_idle {c : Nat} (idle : s.Idle c) (label : String) (id : Nat) :
    (s.expand label id).2.composite c = s.composite c := by
  let R (s t : Store) : Prop := ∀ c, s.Idle c → t.composite c = s.composite c
  have trans : ∀ {s t u : Store}, R s t → R t u → R s u := by
    intro s t u first next c idle
    have same := first c idle
    have still : t.Idle c := by
      unfold Idle at idle ⊢
      rwa [same]
    exact (next c still).trans same
  exact expand_relates (R := R) (fun _ _ _ => rfl) trans
    (fun s id entities c idle => composite_applyShared_of_idle idle id entities) s label id c idle

/-! ## What an expansion depends on -/

theorem Spent.of_kept (spent : t.Spent id)
    (kept : ∀ inner ∈ t.instances id, u.composite inner = t.composite inner) : u.Spent id := by
  induction spent with
  | @intro id idle within ih =>
    have here := kept id (mem_instances.mpr (.inl rfl))
    refine .intro ?_ fun member inner mem lt => ?_
    · unfold Idle at idle ⊢
      rwa [here]
    · rw [here] at mem
      exact ih member inner mem lt fun i met =>
        kept i (mem_instances.mpr (.inr ⟨member, inner, mem, lt, met⟩))

/-- All that an expansion of a spent composite comes to is idle. -/
theorem Spent.idle_of_mem (spent : t.Spent id) {inner : Nat} (met : inner ∈ t.instances id) :
    t.Idle inner := by
  induction spent with
  | intro idle _ ih =>
    rcases mem_instances.mp met with rfl | ⟨member, below, mem, lt, inside⟩
    · exact idle
    · exact ih member below mem lt inside

theorem leaves_of_kept (kept : ∀ inner ∈ t.instances id, u.composite inner = t.composite inner)
    (label : String) : u.leaves label id = t.leaves label id := by
  induction id using Nat.strongRecOn generalizing label with
  | _ id older =>
    rw [Store.leaves, Store.leaves, kept id (mem_instances.mpr (.inl rfl)), List.flatMap_def,
      List.flatMap_def]
    congr 1
    refine List.map_congr_left fun member mem => ?_
    obtain ⟨name, target⟩ := member
    cases target with
    | entity e => rfl
    | composite inner =>
      dsimp only
      split
      · next lt =>
        exact older inner lt (fun i met =>
          kept i (mem_instances.mpr (.inr ⟨name, inner, mem, lt, met⟩))) _
      · rfl

/-! ## Again -/

/-- After an expansion, another one of the same composite gives the same entities in the same order,
each name with the other label in place of the first one, and leaves the store as it is. So it is at
any later time at which the composite and those within it are as the first expansion left them, that
is, unless properties have been propagated to one of them. -/
theorem expand_again {label : String} {entities : List (String × Nat)}
    (done : s.expand label id = (entities, t))
    (kept : ∀ inner ∈ t.instances id, u.composite inner = t.composite inner) (again : String) :
    ∃ members : List (String × Nat),
      entities = members.map (fun member => (label ++ member.1, member.2)) ∧
      u.expand again id = (members.map fun member => (again ++ member.1, member.2), u) := by
  obtain ⟨rfl, rfl⟩ := Prod.mk.inj done.symm
  have spent := (spent_expand s label id).of_kept kept
  refine ⟨(s.expand "" id).1, expand_relabel s label id, Prod.ext ?_ (expand_of_spent spent again)⟩
  rw [← expand_relabel, expand_eq, leaves_of_kept kept, ← expand_eq]
  exact (later_expand s label id).expand_fst again id

/-- Nothing is shared twice in a nested composite, also when the inner one is expanded under another
name and an entity is named in between. -/
theorem expand_again_nested :
    let t := (nested.expand "site" 1).2
    let u := (t.expand "app" 0).2.nameEntity 0 "app_bucket"
    nested.expand "site" 1 = ([("site_app_bucket", 0), ("site_logs", 1)], t) ∧
      (∀ inner ∈ t.instances 1, u.composite inner = t.composite inner) ∧
      (u.expand "copy" 1).2 = u := by
  intro t u
  have names : (nested.expand "site" 1).1 = [("site_app_bucket", 0), ("site_logs", 1)] := by
    rw [expand_eq_leaves tree_nested.leaf_names, leaves_eq_branches, branches_nested]
    decide +kernel
  have done : nested.expand "site" 1 = ([("site_app_bucket", 0), ("site_logs", 1)], t) :=
    Prod.ext names rfl
  have kept : ∀ inner ∈ t.instances 1, u.composite inner = t.composite inner := by
    intro inner met
    have idle : t.Idle inner := (spent_expand nested "site" 1).idle_of_mem met
    exact composite_expand_of_idle idle "app" 0
  obtain ⟨members, -, again⟩ := expand_again done kept "copy"
  exact ⟨done, kept, by rw [again]⟩

end Store
end Infra
