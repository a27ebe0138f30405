import Infra.Proofs.Composite.Sharing

/-!
# Trees of composites

* `Store.Branch` : a leaf with the member names that lead to it and the composites around it;
  `Store.branches` : all of them in the order of members;
* `Store.Tree s label id` : no entity and no composite occurs twice below a composite, all names are
  different and nothing has been shared yet;
* `Tree.nameCount_eq` : a composite then has one name for each entity that it is around;
* `Store.expand_tree` : an expansion gives the leaves, and merges into each of them what the
  composites around it share, from the innermost to the outermost.
-/

namespace Infra
namespace Store

variable {s : Store} {label : String} {id : Nat}

/-- An entity below a composite: the member names that lead to it, and the composites around it from
the innermost to the outermost. -/
structure Branch where
  path : List String
  around : List Nat
  entity : Nat
  deriving DecidableEq, Repr

/-- The branch as it is seen from a composite that has the one of the branch as a member. -/
def Branch.within (b : Branch) (id : Nat) (member : String) : Branch :=
  ⟨member :: b.path, b.around ++ [id], b.entity⟩

/-- The entities below a composite, in the order of members. -/
def branches (s : Store) (id : Nat) : List Branch :=
  (s.composite id).members.flatMap fun member =>
    match member.2 with
    | .entity e => [⟨[member.1], [id], e⟩]
    | .composite inner =>
      if _older : inner < id then (branches s inner).map (·.within id member.1) else []
termination_by id

theorem leaves_eq_branches (s : Store) (label : String) (id : Nat) :
    s.leaves label id = (s.branches id).map fun b => (fullName label b.path, b.entity) := by
  induction id using Nat.strongRecOn generalizing label with
  | _ id older =>
    rw [leaves, branches, List.map_flatMap]
    congr 1
    funext member
    cases member.2 with
    | entity e =>
      dsimp only
      rw [List.map_singleton, fullName_cons, fullName_nil]
    | composite inner =>
      dsimp only
      split
      · next lt =>
        rw [older inner lt, List.map_map]
        exact List.map_congr_left fun b _ => by
          rw [Function.comp_apply, Branch.within, fullName_cons]
      · rfl

theorem mem_branches {b : Branch} : b ∈ s.branches id ↔
    (∃ member e, (member, Member.entity e) ∈ (s.composite id).members ∧ b = ⟨[member], [id], e⟩) ∨
      ∃ member inner, (member, Member.composite inner) ∈ (s.composite id).members ∧ inner < id ∧
        ∃ below ∈ s.branches inner, b = below.within id member := by
  rw [branches, List.mem_flatMap]
  constructor
  · rintro ⟨⟨member, target⟩, mem, inside⟩
    cases target with
    | entity e => exact .inl ⟨member, e, mem, List.mem_singleton.mp inside⟩
    | composite inner =>
      dsimp only at inside
      split at inside
      · next lt =>
        obtain ⟨below, held, rfl⟩ := List.mem_map.mp inside
        exact .inr ⟨member, inner, mem, lt, below, held, rfl⟩
      · cases inside
  · rintro (⟨member, e, mem, rfl⟩ | ⟨member, inner, mem, lt, below, held, rfl⟩)
    · exact ⟨(member, .entity e), mem, List.mem_singleton_self _⟩
    · refine ⟨(member, .composite inner), mem, ?_⟩
      dsimp only
      rw [dif_pos lt]
      exact List.mem_map_of_mem held

theorem sublist_instances {member : String} {inner : Nat}
    (mem : (member, Member.composite inner) ∈ (s.composite id).members) (lt : inner < id) :
    (s.instances inner ++ [id]).Sublist (s.instances id) := by
  rw [instances.eq_def s id, List.flatMap_def]
  refine List.Sublist.append_right (List.sublist_flatten_of_mem ?_) _
  have held := List.mem_map_of_mem (f := fun member : String × Member =>
    match member.2 with
    | .entity _ => []
    | .composite inner => if _older : inner < id then s.instances inner else []) mem
  dsimp only at held
  rwa [dif_pos lt] at held

theorem mem_instances {i : Nat} : i ∈ s.instances id ↔ i = id ∨
    ∃ member inner, (member, Member.composite inner) ∈ (s.composite id).members ∧ inner < id ∧
      i ∈ s.instances inner := by
  rw [instances, List.mem_append, List.mem_singleton, List.mem_flatMap, or_comm]
  refine or_congr_right ⟨?_, ?_⟩
  · rintro ⟨⟨member, target⟩, mem, inside⟩
    cases target with
    | entity e => cases inside
    | composite inner =>
      dsimp only at inside
      split at inside
      · next lt => exact ⟨member, inner, mem, lt, inside⟩
      · cases inside
  · rintro ⟨member, inner, mem, lt, inside⟩
    refine ⟨(member, .composite inner), mem, ?_⟩
    dsimp only
    rwa [dif_pos lt]

theorem sublist_leaves {member : String} {inner : Nat}
    (mem : (member, Member.composite inner) ∈ (s.composite id).members) (lt : inner < id)
    (label : String) :
    (s.leaves (label ++ "_" ++ member) inner).Sublist (s.leaves label id) := by
  rw [leaves.eq_def s label id, List.flatMap_def]
  apply List.sublist_flatten_of_mem
  have held := List.mem_map_of_mem (f := fun member : String × Member =>
    match member.2 with
    | .entity e => [(label ++ "_" ++ member.1, e)]
    | .composite inner =>
      if _older : inner < id then s.leaves (label ++ "_" ++ member.1) inner else []) mem
  dsimp only at held
  rwa [dif_pos lt] at held

/-! ## Composites around a leaf -/

theorem mem_around {b : Branch} (mem : b ∈ s.branches id) : id ∈ b.around := by
  rcases mem_branches.mp mem with ⟨member, e, -, rfl⟩ | ⟨member, inner, -, -, below, -, rfl⟩
  · exact List.mem_singleton_self _
  · exact List.mem_append_right _ (List.mem_singleton_self _)

/-- The composites around a leaf stand in the order in which an expansion comes to them. -/
theorem around_sublist {b : Branch} (mem : b ∈ s.branches id) :
    b.around.Sublist (s.instances id) := by
  induction id using Nat.strongRecOn generalizing b with
  | _ id older =>
    rcases mem_branches.mp mem with
      ⟨member, e, -, rfl⟩ | ⟨member, inner, listed, lt, below, held, rfl⟩
    · rw [instances]
      exact List.sublist_append_right _ _
    · exact ((older inner lt held).append (.refl _)).trans (sublist_instances listed lt)

theorem exists_branch_of_mem_around {b : Branch} (mem : b ∈ s.branches id) {i : Nat}
    (around : i ∈ b.around) : ∃ below ∈ s.branches i, below.entity = b.entity := by
  induction id using Nat.strongRecOn generalizing b with
  | _ id older =>
    rcases mem_branches.mp mem with
      ⟨member, e, -, rfl⟩ | ⟨member, inner, -, lt, below, held, rfl⟩
    · obtain rfl := List.mem_singleton.mp around
      exact ⟨_, mem, rfl⟩
    · rcases List.mem_append.mp around with inside | here
      · obtain ⟨leaf, listed, same⟩ := older inner lt held inside
        exact ⟨leaf, listed, same⟩
      · obtain rfl := List.mem_singleton.mp here
        exact ⟨_, mem, rfl⟩

theorem exists_branch_of_mem_instances {i : Nat} (met : i ∈ s.instances id) {below : Branch}
    (leaf : below ∈ s.branches i) :
    ∃ b ∈ s.branches id, b.entity = below.entity ∧ i ∈ b.around := by
  induction id using Nat.strongRecOn with
  | _ id older =>
    rcases mem_instances.mp met with rfl | ⟨member, inner, mem, lt, inside⟩
    · exact ⟨below, leaf, rfl, mem_around leaf⟩
    · obtain ⟨b, held, same, around⟩ := older inner lt inside
      exact ⟨b.within id member, mem_branches.mpr (.inr ⟨member, inner, mem, lt, b, held, rfl⟩),
        same, List.mem_append_left _ around⟩

theorem exists_sublist_leaves {i : Nat} (met : i ∈ s.instances id) (label : String) :
    ∃ name, (s.leaves name i).Sublist (s.leaves label id) := by
  induction id using Nat.strongRecOn generalizing label with
  | _ id older =>
    rcases mem_instances.mp met with rfl | ⟨member, inner, mem, lt, inside⟩
    · exact ⟨label, .refl _⟩
    · obtain ⟨name, sub⟩ := older inner lt inside (label ++ "_" ++ member)
      exact ⟨name, sub.trans (sublist_leaves mem lt label)⟩

/-! ## Trees -/

/-- No entity and no composite occurs twice below the composite, the names of all leaves are
different, and nothing has been shared yet. -/
structure Tree (s : Store) (label : String) (id : Nat) : Prop where
  entities : ((s.branches id).map (·.entity)).Nodup
  composites : (s.instances id).Nodup
  names : ((s.branches id).map fun b => fullName label b.path).Nodup
  pending : ∀ inner ∈ s.instances id, (s.composite inner).applied = false

/-- Where all names are different, an expansion gives the leaves. -/
theorem expand_eq_leaves (names : ((s.leaves label id).map (·.1)).Nodup) :
    (s.expand label id).1 = s.leaves label id := by
  rw [expand_eq, Named.ofList_eq, Named.setAll_of_new (by simpa using names), List.nil_append]

theorem Tree.leaf_names (tree : s.Tree label id) : ((s.leaves label id).map (·.1)).Nodup := by
  rw [leaves_eq_branches, List.map_map]
  exact tree.names

/-- In a tree a composite has one name for each entity that it is around, and none for others. -/
theorem Tree.nameCount_eq (tree : s.Tree label id) {i : Nat} (met : i ∈ s.instances id)
    {b : Branch} (leaf : b ∈ s.branches id) :
    s.nameCount i b.entity = if i ∈ b.around then 1 else 0 := by
  obtain ⟨name, sub⟩ := exists_sublist_leaves met label
  have entities : (s.leaves name i).map (·.2) = (s.branches i).map (·.entity) := by
    rw [leaves_eq_branches, List.map_map]
    rfl
  have once : ((s.branches i).map (·.entity)).Nodup := by
    have all : ((s.leaves label id).map (·.2)).Nodup := by
      rw [leaves_eq_branches, List.map_map]
      exact tree.entities
    rw [← entities]
    exact all.sublist (sub.map _)
  rw [← count_expand s name, expand_eq_leaves (tree.leaf_names.sublist (sub.map _)), entities]
  split
  · next around =>
    obtain ⟨below, held, same⟩ := exists_branch_of_mem_around leaf around
    exact List.count_eq_one_of_mem once (same ▸ List.mem_map_of_mem held)
  · next apart =>
    refine List.count_eq_zero.mpr fun mem => apart ?_
    obtain ⟨below, held, same⟩ := List.mem_map.mp mem
    obtain ⟨other, listed, again, around⟩ := exists_branch_of_mem_instances met held
    -- The entity occurs once.
    rwa [List.inj_on_of_nodup_map tree.entities listed leaf (again.trans same)] at around

theorem foldl_of_sublist {α β : Type} {f : β → α → β} {sub all : List α} (h : sub.Sublist all)
    (nodup : all.Nodup) (skip : ∀ a ∈ all, a ∉ sub → ∀ b, f b a = b) (b : β) :
    all.foldl f b = sub.foldl f b := by
  induction h generalizing b with
  | slnil => rfl
  | @cons sub all a h ih =>
    obtain ⟨new, nodup⟩ := List.nodup_cons.mp nodup
    rw [List.foldl_cons, skip a List.mem_cons_self fun mem => new (h.subset mem)]
    exact ih nodup (fun other mem => skip other (List.mem_cons_of_mem _ mem)) b
  | @cons_cons sub all a h ih =>
    obtain ⟨new, nodup⟩ := List.nodup_cons.mp nodup
    rw [List.foldl_cons, List.foldl_cons]
    refine ih nodup (fun other mem apart => skip other (List.mem_cons_of_mem _ mem) ?_) _
    rw [List.mem_cons, not_or]
    exact ⟨fun same => new (same ▸ mem), apart⟩

theorem eraseDups_of_nodup {ids : List Nat} (nodup : ids.Nodup) : ids.eraseDups = ids := by
  induction ids using List.reverseRecOn with
  | nil => rfl
  | append_singleton before id ih =>
    obtain ⟨before, -, apart⟩ := List.nodup_append.mp nodup
    rw [eraseDups_append_singleton, ih before,
      if_neg fun mem => apart id mem id (List.mem_singleton_self _) rfl]

/-- What is shared in a tree, from the innermost composite to the outermost. -/
theorem Tree.sharedInto_eq (tree : s.Tree label id) {b : Branch} (leaf : b ∈ s.branches id)
    (own : List (Value × Held)) :
    s.sharedInto b.entity (s.instances id).eraseDups own =
      b.around.foldl (fun own inner => merge (s.heldShared inner) own) own := by
  have all : (s.instances id).filter (fun inner => !(s.composite inner).applied) =
      s.instances id :=
    List.filter_eq_self.mpr fun inner mem => by rw [tree.pending inner mem]; rfl
  unfold sharedInto
  rw [eraseDups_of_nodup tree.composites, all,
    foldl_of_sublist (around_sublist leaf) tree.composites fun inner met apart own => by
      rw [tree.nameCount_eq met leaf, if_neg apart]
      rfl]
  refine List.foldl_ext _ _ _ fun own inner around => ?_
  rw [tree.nameCount_eq ((around_sublist leaf).subset around) leaf, if_pos around]
  rfl

/-- An expansion of a tree gives its leaves in the order of members, under the joined names of the
members that lead to them. Each leaf then holds its own properties together with those that the
composites around it share, merged from the innermost composite to the outermost; where none of them
shares anything, its properties are what they were. -/
theorem expand_tree (s : Store) (formed : s.Formed) (label : String) (id : Nat)
    (tree : s.Tree label id) :
    (s.expand label id).1 = (s.branches id).map (fun b => (fullName label b.path, b.entity)) ∧
    ∀ b ∈ s.branches id,
      (s.expand label id).2.heldProps b.entity =
        b.around.foldl (fun own inner => merge (s.heldShared inner) own) (s.heldProps b.entity) ∧
      ((∀ inner ∈ b.around, s.sharedOf inner = []) →
        (s.expand label id).2.props b.entity = s.props b.entity) := by
  have applied := formed.applied_nil.expand formed label id
  rw [List.nil_append] at applied
  refine ⟨(expand_eq_leaves tree.leaf_names).trans (leaves_eq_branches s label id),
    fun b leaf => ?_⟩
  have known : b.entity < s.entities.size := by
    have listed : (fullName label b.path, b.entity) ∈ s.leaves label id := by
      rw [leaves_eq_branches]
      exact List.mem_map_of_mem leaf
    obtain ⟨path, reached, -⟩ := mem_leaves.mp listed
    exact formed.leaf_lt reached
  refine ⟨?_, fun none => applied.kept b.entity known fun inner met => ?_⟩
  · rw [applied.holds b.entity known, tree.sharedInto_eq leaf]
  · by_cases around : inner ∈ b.around
    · exact .inl (.inr (none inner around))
    · exact .inr (by rw [tree.nameCount_eq met leaf, if_neg around])

/-- A composite with another as a member; both share a list. -/
def nested : Store :=
  { initial with
    sequences := ⟨#[⟨.list, [.text "own"]⟩, ⟨.list, [.text "inner"]⟩, ⟨.list, [.text "outer"]⟩]⟩
    mappings := ⟨#[[(.text "Tags", .sequence 0), (.text "Retain", .null)], []]⟩
    entities := ⟨#[⟨.resource, "Bucket", "", "", 0, [], none, none, none⟩,
      ⟨.resource, "Bucket", "", "", 1, [], none, none, none⟩]⟩
    composites := ⟨#[⟨0, [("bucket", .entity 0)], some [("Tags", .sequence 1)], false⟩,
      ⟨0, [("app", .composite 0), ("logs", .entity 1)],
        some [("Region", .text "eu"), ("Tags", .sequence 2)], false⟩]⟩ }

theorem formed_nested : nested.Formed := by
  refine .of_made (by decide) (fun e lt => ?_) fun id lt => ?_
  · have either : e = 0 ∨ e = 1 := Nat.le_one_iff_eq_zero_or_eq_one.mp (Nat.le_of_lt_succ lt)
    rcases either with rfl | rfl
    · refine ⟨by decide, by decide, ?_⟩
      exact List.forall_mem_cons.mpr ⟨Nat.zero_lt_succ 2, List.forall_mem_singleton.mpr True.intro⟩
    · exact ⟨by decide, by decide, nofun⟩
  · have either : id = 0 ∨ id = 1 := Nat.le_one_iff_eq_zero_or_eq_one.mp (Nat.le_of_lt_succ lt)
    rcases either with rfl | rfl
    · exact ⟨by decide, List.forall_mem_singleton.mpr (by decide : 1 < 3), by decide⟩
    · exact ⟨by decide, List.forall_mem_cons.mpr ⟨True.intro,
        List.forall_mem_singleton.mpr (by decide : 2 < 3)⟩, by decide⟩

theorem branches_nested : nested.branches 1 =
    [⟨["app", "bucket"], [0, 1], 0⟩, ⟨["logs"], [1], 1⟩] := by
  have inner : nested.branches 0 = [⟨["bucket"], [0], 0⟩] := by
    rw [branches]
    rfl
  rw [branches, show (nested.composite 1).members =
    [("app", .composite 0), ("logs", .entity 1)] from rfl]
  simp [inner, Branch.within]

theorem instances_nested : nested.instances 1 = [0, 1] := by
  have inner : nested.instances 0 = [0] := by
    rw [instances]
    rfl
  rw [instances, show (nested.composite 1).members =
    [("app", .composite 0), ("logs", .entity 1)] from rfl]
  simp [inner]

theorem tree_nested : nested.Tree "site" 1 := by
  constructor
  · rw [branches_nested]
    decide
  · rw [instances_nested]
    decide
  · rw [branches_nested]
    decide +kernel
  · rw [instances_nested]
    decide

/-- The lists of both are merged into the one of the leaf. -/
theorem expand_tree_nested : nested.Formed ∧ nested.Tree "site" 1 ∧
    (nested.expand "site" 1).1 = [("site_app_bucket", 0), ("site_logs", 1)] ∧
    (nested.expand "site" 1).2.heldProps 0 = [(.text "Region", .other (.text "eu")),
      (.text "Tags", .list [.text "outer", .text "inner", .text "own"])] := by
  obtain ⟨names, merged⟩ := expand_tree nested formed_nested "site" 1 tree_nested
  rw [branches_nested] at names merged
  refine ⟨formed_nested, tree_nested, names.trans ?_, ?_⟩
  · decide +kernel
  · rw [(merged _ List.mem_cons_self).1]
    decide +kernel

end Store
end Infra
