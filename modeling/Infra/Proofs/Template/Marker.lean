import Infra.Proofs.Template.Closed

/-!
# Markers of outputs

A reference to an attribute of an entity outside the template is rendered by the name of an output,
which joins the names of the entity and of the attribute by an underscore. Both names can hold an
underscore themselves, so that two attributes can share an output.

* `Template.Overlaps` : the name of one entity goes on into the name of the attribute of another;
* `Template.automaticOutput_eq_iff` : two attributes share an output only then;
* `Template.form_eq_iff_overlaps` : and so two references are rendered alike only then, never where
  the attributes are free of underscores.
-/

namespace Infra.Template

open Store

variable {s : Store} {plan : Plan}

/-! ## Names of outputs -/

/-- The second entity is called after the first one and the beginning of its attribute, and the
second attribute is the rest of the first one. -/
def Overlaps (first second : String × String) : Prop :=
  ∃ x, second.1 = first.1 ++ "_" ++ x ∧ first.2 = x ++ "_" ++ second.2

/-- What stands before and after a separator, where that can be read off at two places. -/
theorem append_cons_eq_append_cons {α : Type} {as bs cs ds : List α} {x : α} :
    as ++ x :: bs = cs ++ x :: ds ↔ as = cs ∧ bs = ds ∨
      (∃ ys, cs = as ++ x :: ys ∧ bs = ys ++ x :: ds) ∨
        ∃ ys, as = cs ++ x :: ys ∧ ds = ys ++ x :: bs := by
  rw [List.append_eq_append_iff]
  constructor
  · rintro (⟨more, rfl, eq⟩ | ⟨more, rfl, eq⟩)
    · cases more with
      | nil => exact .inl ⟨by simp, by simpa using eq⟩
      | cons y ys =>
        obtain ⟨rfl, rest⟩ := List.cons_eq_cons.mp eq
        exact .inr (.inl ⟨ys, rfl, rest⟩)
    · cases more with
      | nil => exact .inl ⟨by simp, by simpa using eq.symm⟩
      | cons y ys =>
        obtain ⟨rfl, rest⟩ := List.cons_eq_cons.mp eq
        exact .inr (.inr ⟨ys, rfl, rest⟩)
  · rintro (⟨rfl, rfl⟩ | ⟨ys, rfl, rfl⟩ | ⟨ys, rfl, rfl⟩)
    · exact .inl ⟨[], by simp, by simp⟩
    · exact .inl ⟨x :: ys, rfl, rfl⟩
    · exact .inr ⟨x :: ys, rfl, rfl⟩

theorem toList_automaticOutput (name attr : String) :
    (automaticOutput name attr).toList = name.toList ++ '_' :: attr.toList := by
  simp [automaticOutput]

theorem overlaps_iff {first second : String × String} :
    Overlaps first second ↔ ∃ cs, second.1.toList = first.1.toList ++ '_' :: cs ∧
      first.2.toList = cs ++ '_' :: second.2.toList := by
  constructor
  · rintro ⟨x, name, attr⟩
    exact ⟨x.toList, by simp [name], by simp [attr]⟩
  · rintro ⟨cs, name, attr⟩
    refine ⟨String.ofList cs, ?_, ?_⟩
    · rw [← String.toList_inj, name]
      simp
    · rw [← String.toList_inj, attr]
      simp

/-- Two attributes share an output when they are the same, or when one name goes on into the other
attribute. -/
theorem automaticOutput_eq_iff {n m a b : String} :
    automaticOutput n a = automaticOutput m b ↔
      (n, a) = (m, b) ∨ Overlaps (n, a) (m, b) ∨ Overlaps (m, b) (n, a) := by
  rw [← String.toList_inj, toList_automaticOutput, toList_automaticOutput,
    append_cons_eq_append_cons, overlaps_iff, overlaps_iff, Prod.mk.injEq, String.toList_inj,
    String.toList_inj]

/-- An attribute that goes on from the name of another entity holds an underscore. -/
theorem Overlaps.mem {first second : String × String} (h : Overlaps first second) :
    '_' ∈ first.2.toList := by
  obtain ⟨cs, -, attr⟩ := overlaps_iff.mp h
  rw [attr]
  simp

/-! ## Rendered references -/

theorem form_of_outside {ref : Nat} {name : String} (named : (s.reference ref).name = some name)
    (outside : name ∉ plan.names) (convert : Bool) :
    form s plan convert (.reference ref) =
      .ok (plan.cross (automaticOutput name (s.reference ref).attr)) := by
  have unlisted : plan.names.contains name = false := by simpa using outside
  unfold form render
  simp only [renderTo, named, visitor, unlisted]
  rfl

/-- Two references to attributes of entities outside the template are rendered by their outputs, and
alike exactly when they refer to the same attribute of entities of one name, or when the name of one
entity goes on into the attribute of the other. Where neither attribute holds an underscore, no two
are rendered alike. -/
theorem form_eq_iff_overlaps (cross : Function.Injective plan.cross) {ref other : Nat}
    {n m : String} (named : (s.reference ref).name = some n)
    (named_other : (s.reference other).name = some m) (outside : n ∉ plan.names)
    (outside_other : m ∉ plan.names) (convert : Bool) :
    let first := (n, (s.reference ref).attr)
    let second := (m, (s.reference other).attr)
    form s plan convert (.reference ref) = .ok (plan.cross (automaticOutput first.1 first.2)) ∧
      form s plan convert (.reference other) =
        .ok (plan.cross (automaticOutput second.1 second.2)) ∧
      (form s plan convert (.reference ref) = form s plan convert (.reference other) ↔
        first = second ∨ Overlaps first second ∨ Overlaps second first) ∧
      ('_' ∉ first.2.toList → '_' ∉ second.2.toList → first ≠ second →
        form s plan convert (.reference ref) ≠ form s plan convert (.reference other)) := by
  intro first second
  have here := form_of_outside named outside convert
  have there := form_of_outside named_other outside_other convert
  have alike : form s plan convert (.reference ref) = form s plan convert (.reference other) ↔
      first = second ∨ Overlaps first second ∨ Overlaps second first := by
    rw [here, there, Except.ok.injEq, cross.eq_iff]
    exact automaticOutput_eq_iff
  refine ⟨here, there, alike, fun plain plain_other differ same => ?_⟩
  rcases alike.mp same with eq | overlaps | overlaps
  · exact differ eq
  · exact plain overlaps.mem
  · exact plain_other overlaps.mem

theorem markOutput_injective : Function.Injective markOutput := by
  intro a b eq
  simpa [markOutput, Datum.record, Datum.text] using eq

/-- Two entities of another backend, the one with the attributes `db_arn` and `arn`, the other with
the attribute `arn`. -/
def serviceStore : Store :=
  let s := (initial.newEntity .resource "Service" "service" "Service" []
    [("db_arn", "db_arn"), ("arn", "arn")] none).2
  (s.newEntity .resource "Table" "service" "Table" [] [("arn", "arn")] none).2

def serviceNamespace : Namespace := [("api", .entity 0), ("api_db", .entity 1)]

/-- The template of none of them. -/
def servicePlan : Plan := ⟨[], markOutput, []⟩

/-- The store when the namespace is resolved. -/
def serviceResolved : Store :=
  (((serviceStore.assignNames serviceNamespace).nameReference 0 "api").nameReference 1
    "api").nameReference 2 "api_db"

/-- The attributes `arn` of both entities are rendered differently. -/
theorem form_ne_form_arn :
    Function.Injective servicePlan.cross ∧
      (serviceResolved.reference 1).name = some "api" ∧
      (serviceResolved.reference 2).name = some "api_db" ∧
      form serviceResolved servicePlan true (.reference 1) ≠
        form serviceResolved servicePlan true (.reference 2) := by
  have named : (serviceResolved.reference 1).name = some "api" := by rfl
  have named_other : (serviceResolved.reference 2).name = some "api_db" := by rfl
  have cross : Function.Injective servicePlan.cross := markOutput_injective
  refine ⟨cross, named, named_other, ?_⟩
  exact (form_eq_iff_overlaps cross named named_other List.not_mem_nil List.not_mem_nil true).2.2.2
    (by decide) (by decide) (by decide)

/-- The attribute `db_arn` of `api` and the attribute `arn` of `api_db` share an output. -/
theorem output_shared_by_attributes :
    (serviceStore.collect [⟨"unit", serviceNamespace⟩]).result =
        (serviceStore, .ok serviceNamespace) ∧
      (serviceStore.resolve serviceNamespace).result =
        (serviceResolved, .ok (Arena.ofNamespace serviceNamespace)) ∧
      serviceResolved.reference 0 = ⟨1, "service", "db_arn", some "api"⟩ ∧
      serviceResolved.reference 2 = ⟨2, "service", "arn", some "api_db"⟩ ∧
      form serviceResolved servicePlan true (.reference 0) = .ok (markOutput "api_db_arn") ∧
      form serviceResolved servicePlan true (.reference 2) = .ok (markOutput "api_db_arn") :=
  ⟨rfl, by cbv, rfl, rfl, by cbv, by cbv⟩

end Infra.Template
