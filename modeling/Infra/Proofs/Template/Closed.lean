import Infra.Proofs.Template.Stack
import Infra.Template.Check

/-!
# References that leave a template

* `Template.sources` : the entries that a resource of a template is rendered from;
  `Template.Drawn.mem_references` : its properties refer to what these show;
* `Template.Draft.Defines` : the names that a template defines;
* `Template.Escapes` : the references that it does not define, to a resource of another part as a
  whole and to an attribute of a property entity;
* `Template.defined_or_escapes` : there are no others, and the check finds no others.
-/

namespace Infra.Template

open Store

variable {s : Store} {plan : Plan} {n part : Namespace}

/-! ## What a resource refers to -/

/-- The entries that the properties of a resource are rendered from: what a child project is given,
and the properties of any other entity. -/
def sources (s : Store) (id : Nat) : Except Fault (List (Value × Value)) :=
  match (s.entity id).child with
  | some c => childParameters s c
  | none => .ok (s.props id)

/-- The properties of a resource refer to names that its sources show, and those of a stack to the
base of the templates. -/
theorem Drawn.mem_references (cross : plan.cross = markOutput) {name : String} {id : Nat}
    {d : Datum} (h : Drawn s plan n (name, .entity id) d)
    (plain : ∀ entries, sources s id = .ok entries → s.PlainEntries entries) :
    ∃ entries properties, sources s id = .ok entries ∧ entry d "Properties" = .ok properties ∧
      ∀ t ∈ references properties, (∃ entry ∈ entries, Shows s plan.names entry.2 t) ∨
        t = basePath ∧ ((s.entity id).child).isSome := by
  cases h with
  | stack child form =>
    obtain ⟨given, rendered, properties, parameters, formed, own, same, -⟩ :=
      refersTo_stackForm form
    have source : sources s id = .ok given := by
      rw [sources, child]
      exact parameters
    refine ⟨given, properties, source, own, fun t mem => ?_⟩
    rw [same, mem_references_given cross (plain given source) formed] at mem
    refine mem.imp (fun ⟨entry, inside, shows⟩ => ?_) fun base => ⟨base.1, by rw [child]; rfl⟩
    obtain ⟨k, -, given⟩ := mem_of_mem_respelled inside
    exact ⟨_, given, shows⟩
  | plain single form =>
    obtain ⟨props, rendered, ⟨properties, own, same⟩, -⟩ := entry_resourceForm form
    have source : sources s id = .ok (s.props id) := by rw [sources, single]
    refine ⟨s.props id, properties, source, own, fun t mem => .inl ?_⟩
    rw [same, mem_references_props cross (plain _ source) rendered] at mem
    obtain ⟨entry, inside, shows⟩ := mem
    obtain ⟨k, -, given⟩ := mem_of_mem_respelled inside
    exact ⟨_, mem_of_mem_present given, shows⟩

/-! ## What a template defines -/

/-- The template has a resource or a parameter of the name. -/
def Draft.Defines (draft : Draft) (name : String) : Prop :=
  (∃ d, (.text name, d) ∈ draft.resources) ∨ ∃ d, (.text name, d) ∈ draft.parameters

theorem defines_of_resource (names : (n.map (·.1)).Nodup) {draft : Draft}
    (drawn : drafted s plan n = .ok draft) {t : String} {e : Nat} (mem : (t, .entity e) ∈ n)
    (kind : (s.entity e).kind = .resource) : draft.Defines t := by
  cases parameter : isParameter (s.entity e) with
  | false =>
    obtain ⟨d, inside, -⟩ := exists_drawn names drawn mem (by simp [stands, kind, parameter])
    exact .inl ⟨d, inside⟩
  | true =>
    obtain ⟨named, eq, known⟩ := mem_names_parameters drawn
    obtain ⟨⟨_, d⟩, inside, rfl⟩ := List.mem_map.mp <| (known t).mpr <| .inr <|
      List.mem_map_of_mem (f := (·.1)) <|
        List.mem_filter.mpr ⟨mem, by simp [isParameterEntry, kind, parameter]⟩
    exact .inr ⟨d, eq ▸ List.mem_map_of_mem inside⟩

theorem defines_basePath {draft : Draft} (drawn : drafted s plan n = .ok draft) {name : String}
    {id : Nat} (mem : (name, .entity id) ∈ n) (child : ((s.entity id).child).isSome) :
    draft.Defines basePath := by
  obtain ⟨c, found⟩ := Option.isSome_iff_exists.mp child
  have any : children s n ≠ [] := by
    refine List.ne_nil_of_mem (a := (name, c)) ?_
    exact List.mem_filterMap.mpr ⟨(name, id), Namespace.mem_entities.mpr mem, by rw [found]; rfl⟩
  obtain ⟨named, eq, known⟩ := mem_names_parameters drawn
  obtain ⟨⟨_, d⟩, inside, same⟩ := List.mem_map.mp ((known basePath).mpr (.inl ⟨rfl, any⟩))
  cases same
  exact .inr ⟨d, eq ▸ List.mem_map_of_mem inside⟩

/-- A reference of an entity of a part that the template of the part does not define: a resource of
the namespace that is not in the part stands as a value, or there is a reference to an attribute of
a property entity. -/
inductive Escapes (s : Store) (n part : Namespace) (id : Nat) (t : String) : Prop
  | whole {entries : List (Value × Value)} {entry : Value × Value} {e : Nat} :
    sources s id = .ok entries → entry ∈ entries → s.Within entry.2 (.entity e) →
    (s.entity e).kind = .resource → (t, .entity e) ∈ n → (t, .entity e) ∉ part →
    Escapes s n part id t
  | inlined {entries : List (Value × Value)} {entry : Value × Value} {e ref : Nat} :
    sources s id = .ok entries → entry ∈ entries → s.Within entry.2 (.reference ref) →
    (s.reference ref).parent = handle e → (s.entity e).kind = .property → (t, .entity e) ∈ part →
    Escapes s n part id t

/-- A name that a source of an entity shows is defined by the template, or the reference escapes. -/
theorem defines_or_escapes (once : (n.map (·.1)).Nodup) (entities : (n.entities.map (·.2)).Nodup)
    (known : s.NamedBy n) (names : (part.map (·.1)).Nodup) (sub : ∀ entry ∈ part, entry ∈ n)
    {draft : Draft} (drawn : drafted s plan part = .ok draft) {id : Nat}
    {entries : List (Value × Value)} (source : sources s id = .ok entries) {entry : Value × Value}
    (inside : entry ∈ entries) {t : String} (shows : Shows s (part.map (·.1)) entry.2 t) :
    draft.Defines t ∨ Escapes s n part id t := by
  obtain ⟨e, mem, ⟨ref, within, parent, listed⟩ | ⟨within, kind⟩⟩ :=
    shows.exists_entity known entities
  · obtain ⟨⟨_, v⟩, here, rfl⟩ := List.mem_map.mp listed
    cases List.inj_on_of_nodup_map once (sub _ here) mem rfl
    cases kind : (s.entity e).kind with
    | resource => exact .inl (defines_of_resource names drawn here kind)
    | property => exact .inr (.inlined source inside within parent kind here)
  · by_cases here : (t, .entity e) ∈ part
    · exact .inl (defines_of_resource names drawn here kind)
    · exact .inr (.whole source inside within kind mem here)

/-- A reference to an attribute of an entity that is not in the template is rendered as the marker
of an output. -/
theorem form_reference (known : s.NamedBy n) (entities : (n.entities.map (·.2)).Nodup)
    (cross : plan.cross = markOutput) {ref e : Nat} {t : String}
    (parent : (s.reference ref).parent = handle e) (mem : (t, .entity e) ∈ n)
    (absent : t ∉ plan.names) (named : (s.reference ref).name ≠ none) (convert : Bool) :
    form s plan convert (.reference ref) =
      .ok (markOutput (automaticOutput t (s.reference ref).attr)) := by
  obtain ⟨name, given⟩ := Option.ne_none_iff_exists'.mp named
  have found := known.reference ref name given
  rw [parent, Arena.nameOf?, (Arena.entry?_eq_some_iff entities).mpr
    ⟨Namespace.mem_entities.mpr mem, rfl⟩] at found
  cases found
  have unlisted : plan.names.contains t = false := by simpa using absent
  unfold form render
  simp only [renderTo, given, visitor, unlisted, cross]
  rfl

/-! ## The check -/

theorem elementsOf_table (entries : List (Value × Datum)) :
    elementsOf (.table entries) = .ok (entries.map (·.1)) := by
  show (entries.map fun entry => Datum.leaf entry.1).mapM _ = _
  rw [mapM_eq_ok_iff, List.forall₂_map_left_iff, List.forall₂_map_right_iff, List.forall₂_same]
  exact fun _ _ => rfl

/-- The findings about a resource with some properties, where a template defines some names. -/
def unknownOf (known : List String) (properties : Value × Datum → Datum) (r : Value × Datum) :
    List Diagnostic :=
  (Text.sorted (Text.dedupe ((references (properties r)).filter (!known.contains ·)))).map
    (unknownFound (keyName r.1))

theorem findUnknown_eq {template resources parameters : List (Value × Datum)}
    (listed : section? template "Resources" = .table resources)
    (given : section? template "Parameters" = .table parameters)
    {properties : Value × Datum → Datum}
    (formed : ∀ r ∈ resources, entry r.2 "Properties" = .ok (properties r)) :
    findUnknown template = .ok (resources.map (unknownOf
      ((resources.map (·.1) ++ parameters.map (·.1)).filterMap (·.text?)) properties)).flatten := by
  let known := (resources.map (·.1) ++ parameters.map (·.1)).filterMap (·.text?)
  have each : resources.mapM (fun resource => do
      let targets := references (← entry resource.2 "Properties")
      let unknown := Text.sorted (Text.dedupe (targets.filter (!known.contains ·)))
      (.ok (unknown.map (unknownFound (keyName resource.1))) : Except Fault _)) =
        .ok (resources.map (unknownOf known properties)) := by
    rw [mapM_eq_ok_iff, List.forall₂_map_right_iff, List.forall₂_same]
    intro r mem
    rw [formed r mem]
    rfl
  unfold findUnknown
  rw [listed, given, elementsOf_table, elementsOf_table]
  exact bind_eq_ok_iff.mpr ⟨_, rfl, bind_eq_ok_iff.mpr ⟨_, rfl, bind_eq_ok_iff.mpr
    ⟨resources, rfl, bind_eq_ok_iff.mpr ⟨_, each, rfl⟩⟩⟩⟩

theorem findUnknown_assembled {draft : Draft} {listed : List (String × Datum)}
    {template : List (Value × Datum)} (h : assembled draft listed = .table template)
    (formed : ∀ r ∈ draft.resources, ∃ properties, entry r.2 "Properties" = .ok properties) :
    ∃ found, findUnknown template = .ok found ∧ ∀ finding ∈ found, ∃ r ∈ draft.resources,
      ∃ properties t, entry r.2 "Properties" = .ok properties ∧ t ∈ references properties ∧
        ¬ draft.Defines t ∧ finding = unknownFound (keyName r.1) t := by
  obtain ⟨resources, parameters⟩ := sections_assembled h
  choose! properties formed using formed
  refine ⟨_, findUnknown_eq resources.symm parameters.symm formed, fun finding mem => ?_⟩
  obtain ⟨_, inside, mem⟩ := List.mem_flatten.mp mem
  obtain ⟨r, resource, rfl⟩ := List.mem_map.mp inside
  obtain ⟨t, target, rfl⟩ := List.mem_map.mp mem
  rw [Text.mem_sorted, Text.mem_dedupe, List.mem_filter] at target
  obtain ⟨used, unlisted⟩ := target
  refine ⟨r, resource, properties r, t, formed r resource, used, fun defined => ?_, rfl⟩
  have listed : t ∈ (draft.resources.map (·.1) ++ draft.parameters.map (·.1)).filterMap
      (·.text?) := by
    rcases defined with ⟨d, inside⟩ | ⟨d, inside⟩
    · exact List.mem_filterMap.mpr
        ⟨.text t, List.mem_append_left _ (List.mem_map_of_mem (f := (·.1)) inside), rfl⟩
    · exact List.mem_filterMap.mpr
        ⟨.text t, List.mem_append_right _ (List.mem_map_of_mem (f := (·.1)) inside), rfl⟩
  rw [List.contains_iff_mem.mpr listed] at unlisted
  cases unlisted

/-! ## Closed templates -/

/-- Every name that the properties of a resource refer to is that of a resource or a parameter of
the template, but for references that escape: to a resource of another part as a whole, which is
rendered under its name, and to an attribute of a property entity, which stands in no section. A
reference to an attribute of an entity of another part is rendered as the marker of an output. So
the check of the document finds nothing but references that escape. -/
theorem defined_or_escapes {s₀ s₁ s : Store} {units : List LoadedUnit} {n part : Namespace}
    {arena : Arena} {dependencies : Graph} {outputs : List Value} {r : Rendering}
    (fresh : ∀ id, (s₀.entity id).name = none) (unnamed : ∀ ref, (s₀.reference ref).name = none)
    (collected : (s₀.collect units).result = (s₁, .ok n))
    (resolved : (s₁.resolve n).result = (s, .ok arena)) (names : (part.map (·.1)).Nodup)
    (sub : ∀ entry ∈ part, entry ∈ n)
    (serialized : (serialize s ⟨part.map (·.1), markOutput, dependencies⟩ part outputs).result =
      .ok r)
    (plain : ∀ name id entries, (name, .entity id) ∈ part → stands s (name, .entity id) →
      sources s id = .ok entries → s.PlainEntries entries) :
    ∃ draft listed, drafted s ⟨part.map (·.1), markOutput, dependencies⟩ part = .ok draft ∧
      Json.document (assembled draft listed) = .ok r.primary ∧
      (∀ resource ∈ draft.resources, ∃ name id properties, resource.1 = .text name ∧
        (name, .entity id) ∈ part ∧ entry resource.2 "Properties" = .ok properties ∧
        ∀ t ∈ references properties, draft.Defines t ∨ Escapes s n part id t) ∧
      (∀ ref e t convert, (s.reference ref).parent = handle e → (t, .entity e) ∈ n →
        t ∉ part.map (·.1) → (s.reference ref).name ≠ none →
        form s ⟨part.map (·.1), markOutput, dependencies⟩ convert (.reference ref) =
          .ok (markOutput (automaticOutput t (s.reference ref).attr))) ∧
      (Json.read r.primary = .ok (assembled draft listed) → ∃ template found,
        parse? r.primary = .ok (some template) ∧ findUnknown template = .ok found ∧
        ∀ finding ∈ found, ∃ name id t, finding = unknownFound name t ∧
          (name, .entity id) ∈ part ∧ Escapes s n part id t) := by
  obtain ⟨once, entities, known⟩ := namedBy_of_collect fresh unnamed collected resolved
  obtain ⟨draft, listed, drawn, -, written, -⟩ := serialize_eq_ok_iff.mp serialized
  have each : ∀ resource ∈ draft.resources, ∃ name id properties, resource.1 = .text name ∧
      (name, .entity id) ∈ part ∧ entry resource.2 "Properties" = .ok properties ∧
      ∀ t ∈ references properties, draft.Defines t ∨ Escapes s n part id t := by
    intro resource mem
    obtain ⟨⟨name, v⟩, inside, key, form⟩ := exists_left_of_mem (drafted_resources names drawn) mem
    obtain ⟨here, standing⟩ := List.mem_filter.mp inside
    obtain ⟨id, rfl⟩ : ∃ id, v = .entity id := by
      cases form with
      | stack => exact ⟨_, rfl⟩
      | plain => exact ⟨_, rfl⟩
    obtain ⟨entries, properties, source, own, refers⟩ :=
      form.mem_references rfl fun entries => plain name id entries here standing
    refine ⟨name, id, properties, key, here, own, fun t target => ?_⟩
    rcases refers t target with ⟨entry, given, shows⟩ | ⟨rfl, child⟩
    · exact defines_or_escapes once entities known names sub drawn source given shows
    · exact .inl (defines_basePath drawn here child)
  refine ⟨draft, listed, drawn, written, each, fun ref e t convert parent mem absent named =>
    form_reference known entities rfl parent mem absent named convert, fun inverse => ?_⟩
  obtain ⟨template, tree⟩ : ∃ template, assembled draft listed = .table template := ⟨_, rfl⟩
  obtain ⟨found, finds, only⟩ := findUnknown_assembled tree fun resource mem => by
    obtain ⟨_, _, properties, -, -, own, -⟩ := each resource mem
    exact ⟨properties, own⟩
  refine ⟨template, found, by rw [parse?, inverse, tree], finds, fun finding mem => ?_⟩
  obtain ⟨resource, inside, properties, t, own, target, undefined, rfl⟩ := only finding mem
  obtain ⟨name, id, _, key, here, own', refers⟩ := each resource inside
  cases own.symm.trans own'
  exact ⟨name, id, t, by rw [key, keyName], here, (refers t target).resolve_left undefined⟩

/-- A table of another backend, a property entity with an attribute, and a handler that has the
table as a whole, an attribute of it, and the attribute of the property entity. -/
def handlerStore : Store :=
  let s := (initial.newEntity .resource "Table" "database" "Table" [] [("arn", "Arn")] none).2
  let s := (s.newEntity .property "Rule" "template" "Rule" [] [("arn", "Arn")] none).2
  (s.newEntity .resource "Function" "template" "Function" [(.text "table", .entity 0),
    (.text "source", .reference 0), (.text "rule", .reference 1)] [] none).2

def handlerNamespace : Namespace :=
  [("table", .entity 0), ("rule", .entity 1), ("handler", .entity 2)]

/-- The entities of the template backend. -/
def handlerPart : Namespace := [("rule", .entity 1), ("handler", .entity 2)]

def handlerPlan : Plan := ⟨["rule", "handler"], markOutput, []⟩

/-- The store when the namespace is resolved. -/
def handlerResolved : Store :=
  ((handlerStore.assignNames handlerNamespace).nameReference 0 "table").nameReference 1 "rule"

/-- The sections of the template. -/
def handlerDraft : Draft where
  parameters := []
  resources := [(.text "handler", .record [("Type", .text "Function"), ("Properties", .record [
    ("Table", .record [("Ref", .text "table")]),
    ("Source", markOutput "table_Arn"),
    ("Rule", .record [("Fn::GetAtt", .texts ["rule", "Arn"])])])])]

theorem fresh_handlerStore : (∀ id, (handlerStore.entity id).name = none) ∧
    ∀ ref, (handlerStore.reference ref).name = none := by
  refine ⟨fun id => ?_, fun ref => ?_⟩
  · match id with
    | 0 | 1 | 2 => rfl
    | _ + 3 => rfl
  · match ref with
    | 0 | 1 => rfl
    | _ + 2 => rfl

theorem resolve_handlerNamespace : (handlerStore.resolve handlerNamespace).result =
    (handlerResolved, .ok (Arena.ofNamespace handlerNamespace)) := by
  cbv

theorem drafted_handlerPart :
    drafted handlerResolved handlerPlan handlerPart = .ok handlerDraft := by
  cbv

theorem exists_serialize_handlerPart :
    ∃ r, (serialize handlerResolved handlerPlan handlerPart []).result = .ok r := by
  obtain ⟨primary, written⟩ : ∃ primary, Json.document (assembled handlerDraft []) = .ok primary :=
    ⟨_, rfl⟩
  exact ⟨⟨primary, _⟩, serialize_eq_ok_iff.mpr ⟨_, _, drafted_handlerPart, rfl, written, rfl⟩⟩

/-- The template of the handler refers to nothing else that it does not define. -/
theorem defined_or_escapes_handler :
    (∀ id, (handlerStore.entity id).name = none) ∧
      (∀ ref, (handlerStore.reference ref).name = none) ∧
      (handlerStore.collect [⟨"unit", handlerNamespace⟩]).result =
        (handlerStore, .ok handlerNamespace) ∧
      (handlerStore.resolve handlerNamespace).result =
        (handlerResolved, .ok (Arena.ofNamespace handlerNamespace)) ∧
      (handlerPart.map (·.1)).Nodup ∧ (∀ entry ∈ handlerPart, entry ∈ handlerNamespace) ∧
      (∃ r, (serialize handlerResolved handlerPlan handlerPart []).result = .ok r) ∧
      (∀ name id entries, (name, .entity id) ∈ handlerPart →
        stands handlerResolved (name, .entity id) → sources handlerResolved id = .ok entries →
          handlerResolved.PlainEntries entries) ∧
      ∃ draft, drafted handlerResolved handlerPlan handlerPart = .ok draft ∧
        ∀ resource ∈ draft.resources, ∃ id properties,
          entry resource.2 "Properties" = .ok properties ∧ ∀ t ∈ references properties,
            draft.Defines t ∨ Escapes handlerResolved handlerNamespace handlerPart id t := by
  obtain ⟨fresh, unnamed⟩ := fresh_handlerStore
  have collected : (handlerStore.collect [⟨"unit", handlerNamespace⟩]).result =
      (handlerStore, .ok handlerNamespace) := rfl
  have names : (handlerPart.map (·.1)).Nodup := by decide
  have sub : ∀ entry ∈ handlerPart, entry ∈ handlerNamespace := by decide
  have plain : ∀ name id entries, (name, .entity id) ∈ handlerPart →
      stands handlerResolved (name, .entity id) → sources handlerResolved id = .ok entries →
        handlerResolved.PlainEntries entries := by
    intro name id entries mem standing source
    obtain ⟨-, rfl⟩ : name = "handler" ∧ id = 2 := by
      rcases List.mem_cons.mp mem with eq | mem
      · cases eq
        exact absurd standing (by decide)
      · simpa using mem
    cases source
    intro entry mem
    have given : entry ∈ [(Value.text "table", Value.entity 0), (.text "source", .reference 0),
      (.text "rule", .reference 1)] := mem
    simp only [List.mem_cons, List.not_mem_nil, or_false] at given
    rcases given with rfl | rfl | rfl
    · exact ⟨⟨"table", rfl, by decide +kernel, by decide +kernel⟩, .of_leaf rfl nofun⟩
    · exact ⟨⟨"source", rfl, by decide +kernel, by decide +kernel⟩, .of_leaf rfl nofun⟩
    · exact ⟨⟨"rule", rfl, by decide +kernel, by decide +kernel⟩, .of_leaf rfl nofun⟩
  refine ⟨fresh, unnamed, collected, resolve_handlerNamespace, names, sub,
    exists_serialize_handlerPart, plain, ?_⟩
  obtain ⟨r, serialized⟩ := exists_serialize_handlerPart
  obtain ⟨draft, _, drawn, -, each, -⟩ := defined_or_escapes fresh unnamed collected
    resolve_handlerNamespace names sub serialized plain
  refine ⟨draft, drawn, fun resource mem => ?_⟩
  obtain ⟨_, id, properties, -, -, own, refers⟩ := each resource mem
  exact ⟨id, properties, own, refers⟩

/-- The properties of the handler refer to the table and to the property entity, and the template
defines neither. -/
theorem handler_template_not_closed :
    (∀ id, (handlerStore.entity id).name = none) ∧
      (handlerStore.collect [⟨"unit", handlerNamespace⟩]).result =
        (handlerStore, .ok handlerNamespace) ∧
      (handlerStore.resolve handlerNamespace).result =
        (handlerResolved, .ok (Arena.ofNamespace handlerNamespace)) ∧
      (∃ r, (serialize handlerResolved handlerPlan handlerPart []).result = .ok r) ∧
      drafted handlerResolved handlerPlan handlerPart = .ok handlerDraft ∧
      ∃ resource ∈ handlerDraft.resources, ∃ properties,
        entry resource.2 "Properties" = .ok properties ∧
          references properties = ["table", "rule"] ∧
          ¬ handlerDraft.Defines "table" ∧ ¬ handlerDraft.Defines "rule" := by
  have only : ∀ name, handlerDraft.Defines name → name = "handler" := by
    rintro name (⟨d, mem⟩ | ⟨d, mem⟩)
    · cases List.mem_singleton.mp mem
      rfl
    · cases mem
  refine ⟨fresh_handlerStore.1, rfl, resolve_handlerNamespace, exists_serialize_handlerPart,
    drafted_handlerPart, _, List.mem_singleton_self _, _, rfl, by cbv, fun defined => ?_,
    fun defined => ?_⟩
  · exact absurd (only _ defined) (by decide)
  · exact absurd (only _ defined) (by decide)

end Infra.Template
