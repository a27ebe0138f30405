import Infra.Proofs.Discovery.Dependency
import Infra.Proofs.Except
import Infra.Template.Reference

/-!
# What templates refer to

* `Template.mem_referencesOfItems`, `Template.mem_referencesOfEntries` : a part refers to what its
  own parts refer to;
* `Template.references_table` : a table without the two reserved keys adds nothing of its own;
* `Template.referenceGraph_eq`, `Template.mem_listed_graphOf` : the graph of a template whose
  resources are well-formed.
-/

namespace Infra.Template

theorem mem_referencesOfItems {t : String} {items : List Datum} :
    t ∈ referencesOfItems items ↔ ∃ d ∈ items, t ∈ references d := by
  induction items with
  | nil => simp [referencesOfItems]
  | cons d rest ih => simp [referencesOfItems, ih]

theorem mem_referencesOfEntries {t : String} {entries : List (Value × Datum)} :
    t ∈ referencesOfEntries entries ↔ ∃ entry ∈ entries, t ∈ references entry.2 := by
  induction entries with
  | nil => simp [referencesOfEntries]
  | cons head rest ih =>
    obtain ⟨key, value⟩ := head
    simp [referencesOfEntries, ih]

/-- A key that does not make a table a reference. -/
def IsPlainKey (key : Value) : Prop := key ≠ .text "Ref" ∧ key ≠ .text "Fn::GetAtt"

theorem lookup_eq_none_of_forall_ne {entries : List (Value × Datum)} {key : Value}
    (h : ∀ entry ∈ entries, entry.1 ≠ key) : entries.lookup key = none := by
  rw [List.lookup_eq_none_iff]
  intro entry mem
  simpa using (h entry mem).symm

/-- A table with plain keys refers to what its values refer to. -/
theorem references_table {entries : List (Value × Datum)}
    (plain : ∀ entry ∈ entries, IsPlainKey entry.1) :
    references (.table entries) = referencesOfEntries entries := by
  have ref : entries.lookup (.text "Ref") = none :=
    lookup_eq_none_of_forall_ne fun entry mem => (plain entry mem).1
  have att : entries.lookup (.text "Fn::GetAtt") = none :=
    lookup_eq_none_of_forall_ne fun entry mem => (plain entry mem).2
  rw [references, refTarget?, getAttTarget?, ref, att]
  rfl

/-- The names that a well-formed resource refers to: in its properties, then under `DependsOn`. -/
def RefersTo (resource : Datum) (targets : List String) : Prop :=
  ∃ properties listed, entry resource "Properties" = .ok properties ∧
    dependsOn resource = .ok listed ∧
    targets = references properties ++ listed.filterMap (·.text?)

/-- The graph of resources, given what each refers to: the other resources among that. -/
def graphOf (resources : List (Value × Datum)) (targets : Value × Datum → List String) : Graph :=
  resources.map fun r => (keyName r.1, Text.dedupe <| (targets r).filter fun t =>
    (resources.map fun r => keyName r.1).contains t && t != keyName r.1)

/-- The graph of a template with well-formed resources is that of what they refer to. -/
theorem referenceGraph_eq {template resources : List (Value × Datum)}
    (section_eq : section? template "Resources" = .table resources)
    {targets : Value × Datum → List String} (formed : ∀ r ∈ resources, RefersTo r.2 (targets r)) :
    referenceGraph template = .ok (graphOf resources targets) := by
  unfold referenceGraph graphOf
  rw [section_eq]
  show resources.mapM _ = _
  rw [mapM_eq_ok_iff, List.forall₂_map_right_iff, List.forall₂_same]
  intro r mem
  obtain ⟨properties, listed, props, deps, eq⟩ := formed r mem
  rw [props, deps, eq]
  rfl

/-- An edge of the graph leads from a resource to another one that it refers to. -/
theorem mem_listed_graphOf {resources : List (Value × Datum)}
    {targets : Value × Datum → List String} (keys : (resources.map fun r => keyName r.1).Nodup)
    {r : Value × Datum} (mem : r ∈ resources) {t : String} :
    t ∈ (graphOf resources targets).listed (keyName r.1) ↔
      t ∈ targets r ∧ (∃ u ∈ resources, keyName u.1 = t) ∧ t ≠ keyName r.1 := by
  have nodes : ((graphOf resources targets).map (·.1)).Nodup := by
    unfold graphOf
    rwa [List.map_map]
  have entry := (lookup_eq_some_iff_mem nodes).mpr (List.mem_map_of_mem mem)
  unfold Graph.listed
  rw [entry, Option.getD_some, Text.mem_dedupe, List.mem_filter]
  simp

end Infra.Template
