import Infra.Proofs.Entries
import Infra.Proofs.Template.Reference
import Infra.Template.Serializer

/-!
# The sections of a drafted template

* `Template.Adds` : what an entry of the namespace makes of the sections;
* `Template.stands` : the entities that stand among the resources;
* `Template.Drawn` : the form of such an entity, a stack or a plain resource;
* `Template.drafted_resources` : the resources of a template are the forms of these entities, in
  the order of the namespace; `Template.mem_names_parameters` : the names of its parameters;
* `Template.serialize_eq_ok_iff` : a rendering is the document of the sections, with files;
* `Template.refersTo_resourceForm`, `Template.refersTo_stackForm` : what the forms refer to.
-/

namespace Infra.Template

variable {s : Store} {plan : Plan} {n : Namespace}

/-! ## Forms of entities -/

/-- Whether an entry stands among the resources: it is a resource and no parameter. -/
def stands (s : Store) (entry : String × Value) : Bool :=
  match entry.2 with
  | .entity id => (s.entity id).kind = .resource && !isParameter (s.entity id)
  | _ => false

/-- The form that an entry has among the resources. -/
inductive Drawn (s : Store) (plan : Plan) (n : Namespace) : String × Value → Datum → Prop
  | stack {name : String} {id : Nat} {c : Child} {d : Datum} : (s.entity id).child = some c →
    stackForm s plan name (s.entity id) c = .ok d → Drawn s plan n (name, .entity id) d
  | plain {name : String} {id : Nat} {d : Datum} : (s.entity id).child = none →
    resourceForm s plan n name id = .ok d → Drawn s plan n (name, .entity id) d

/-- What an entry makes of the sections: a property entity leaves them, a parameter adds its form to
the parameters, and any other resource its form to the resources. -/
inductive Adds (s : Store) (plan : Plan) (n : Namespace) (draft : Draft) :
    String × Value → Draft → Prop
  | property {name : String} {id : Nat} : (s.entity id).kind = .property →
    Adds s plan n draft (name, .entity id) draft
  | parameter {name : String} {id : Nat} {d : Datum} : (s.entity id).kind = .resource →
    isParameter (s.entity id) = true → parameterForm s plan id = .ok d →
    Adds s plan n draft (name, .entity id)
      { draft with parameters := draft.parameters.put name d }
  | resource {name : String} {id : Nat} {d : Datum} : (s.entity id).kind = .resource →
    isParameter (s.entity id) = false → Drawn s plan n (name, .entity id) d →
    Adds s plan n draft (name, .entity id) { draft with resources := draft.resources.put name d }

theorem adds_of_addEntity {draft next : Draft} {entry : String × Value}
    (h : addEntity s plan n draft entry = .ok next) : Adds s plan n draft entry next := by
  obtain ⟨name, v⟩ := entry
  unfold addEntity at h
  cases v with
  | entity id =>
    cases kind : (s.entity id).kind with
    | property =>
      simp only [kind] at h
      cases h
      exact .property kind
    | resource =>
      cases parameter : isParameter (s.entity id) with
      | true =>
        simp only [kind, parameter] at h
        obtain ⟨d, form, eq⟩ := bind_eq_ok_iff.mp h
        cases eq
        exact .parameter kind parameter form
      | false =>
        cases child : (s.entity id).child with
        | some c =>
          simp only [kind, parameter, child] at h
          obtain ⟨d, form, eq⟩ := bind_eq_ok_iff.mp h
          cases eq
          exact .resource kind parameter (.stack child form)
        | none =>
          simp only [kind, parameter, child] at h
          obtain ⟨d, form, eq⟩ := bind_eq_ok_iff.mp h
          cases eq
          exact .resource kind parameter (.plain child form)
  | _ => cases h

theorem addEntity_cases {draft next : Draft} {entry : String × Value}
    (h : addEntity s plan n draft entry = .ok next) :
    (stands s entry = true ∧ ∃ d, Drawn s plan n entry d ∧
        next.resources = draft.resources.put entry.1 d) ∨
      (stands s entry = false ∧ next.resources = draft.resources) := by
  cases adds_of_addEntity h with
  | property kind => exact .inr ⟨by simp [stands, kind], rfl⟩
  | parameter kind parameter _ => exact .inr ⟨by simp [stands, parameter], rfl⟩
  | resource kind plain drawn => exact .inl ⟨by simp [stands, kind, plain], _, drawn, rfl⟩

/-! ## All resources -/

/-- A resource of a template belongs to an entry: it has its name and its form. -/
def Belongs (s : Store) (plan : Plan) (n : Namespace) (entry : String × Value)
    (r : Value × Datum) : Prop :=
  r.1 = .text entry.1 ∧ Drawn s plan n entry r.2

theorem resources_foldlM {entries : List (String × Value)} {draft final : Draft}
    (names : (entries.map (·.1)).Nodup)
    (fresh : ∀ r ∈ draft.resources, ∃ k, r.1 = .text k ∧ k ∉ entries.map (·.1))
    (h : entries.foldlM (addEntity s plan n) draft = .ok final) :
    ∃ added, final.resources = draft.resources ++ added ∧
      List.Forall₂ (Belongs s plan n) (entries.filter (stands s)) added := by
  induction entries generalizing draft with
  | nil =>
    cases h
    exact ⟨[], by simp, .nil⟩
  | cons entry rest ih =>
    rw [List.foldlM_cons] at h
    obtain ⟨next, step, later⟩ := bind_eq_ok_iff.mp h
    rw [List.map_cons] at names fresh
    obtain ⟨unused, names⟩ := List.nodup_cons.mp names
    rcases addEntity_cases step with ⟨standing, d, drawn, resources⟩ | ⟨absent, resources⟩
    · have put : next.resources = draft.resources ++ [(.text entry.1, d)] := by
        rw [resources]
        refine Entries.insert_of_new (fun r mem same => ?_) d
        obtain ⟨k, eq, new⟩ := fresh r mem
        rw [eq, Value.sameScalar_text] at same
        exact new (same ▸ List.mem_cons_self)
      obtain ⟨added, final_eq, belong⟩ := ih names (fun r mem => by
        rw [put] at mem
        rcases List.mem_append.mp mem with before | last
        · obtain ⟨k, eq, new⟩ := fresh r before
          exact ⟨k, eq, fun later => new (List.mem_cons_of_mem _ later)⟩
        · rw [List.mem_singleton.mp last]
          exact ⟨entry.1, rfl, unused⟩) later
      refine ⟨(.text entry.1, d) :: added, by rw [final_eq, put]; simp, ?_⟩
      rw [List.filter_cons_of_pos standing]
      exact .cons ⟨rfl, drawn⟩ belong
    · obtain ⟨added, final_eq, belong⟩ := ih names (fun r mem => by
        rw [resources] at mem
        obtain ⟨k, eq, new⟩ := fresh r mem
        exact ⟨k, eq, fun later => new (List.mem_cons_of_mem _ later)⟩) later
      refine ⟨added, by rw [final_eq, resources], ?_⟩
      rwa [List.filter_cons_of_neg (by simp [absent])]

/-- The resources of a template are those of the entries that stand among them, in order. -/
theorem drafted_resources (names : (n.map (·.1)).Nodup) {draft : Draft}
    (h : drafted s plan n = .ok draft) :
    List.Forall₂ (Belongs s plan n) (n.filter (stands s)) draft.resources := by
  obtain ⟨added, eq, belong⟩ := resources_foldlM names (by simp) h
  rw [eq]
  exact belong

theorem exists_drawn (names : (n.map (·.1)).Nodup) {draft : Draft}
    (h : drafted s plan n = .ok draft) {entry : String × Value} (mem : entry ∈ n)
    (standing : stands s entry = true) :
    ∃ d, (.text entry.1, d) ∈ draft.resources ∧ Drawn s plan n entry d := by
  obtain ⟨⟨_, d⟩, inside, rfl, drawn⟩ :=
    exists_right_of_mem (drafted_resources names h) (List.mem_filter.mpr ⟨mem, standing⟩)
  exact ⟨d, inside, drawn⟩

theorem keyName_of_belongs {entries : List (String × Value)} {resources : List (Value × Datum)}
    (h : List.Forall₂ (Belongs s plan n) entries resources) :
    (resources.map fun r => keyName r.1) = entries.map (·.1) := by
  induction h with
  | nil => rfl
  | cons first _ ih => rw [List.map_cons, List.map_cons, ih, first.1, keyName]

/-! ## All parameters -/

/-- Whether an entry stands among the parameters. -/
def isParameterEntry (s : Store) (entry : String × Value) : Bool :=
  match entry.2 with
  | .entity id => (s.entity id).kind = .resource && isParameter (s.entity id)
  | _ => false

theorem parameters_addEntity {draft next : Draft} {entry : String × Value}
    (h : addEntity s plan n draft entry = .ok next) :
    (isParameterEntry s entry = true ∧ ∃ d, next.parameters = draft.parameters.put entry.1 d) ∨
      (isParameterEntry s entry = false ∧ next.parameters = draft.parameters) := by
  cases adds_of_addEntity h with
  | property kind => exact .inr ⟨by simp [isParameterEntry, kind], rfl⟩
  | parameter kind parameter _ =>
    exact .inl ⟨by simp [isParameterEntry, kind, parameter], _, rfl⟩
  | resource kind plain _ => exact .inr ⟨by simp [isParameterEntry, plain], rfl⟩

theorem parameters_foldlM {entries : List (String × Value)} {draft final : Draft}
    {named : List (String × Datum)} (start : draft.parameters = Entries.ofNamed named)
    (h : entries.foldlM (addEntity s plan n) draft = .ok final) :
    ∃ all, final.parameters = Entries.ofNamed all ∧ ∀ name, name ∈ all.map (·.1) ↔
      name ∈ named.map (·.1) ∨ name ∈ (entries.filter (isParameterEntry s)).map (·.1) := by
  induction entries generalizing draft named with
  | nil =>
    cases h
    exact ⟨named, start, by simp⟩
  | cons entry rest ih =>
    rw [List.foldlM_cons] at h
    obtain ⟨next, step, later⟩ := bind_eq_ok_iff.mp h
    rcases parameters_addEntity step with ⟨adds, d, parameters⟩ | ⟨leaves, parameters⟩
    · have put : next.parameters = Entries.ofNamed (Named.insert named entry.1 d) := by
        rw [parameters, start, Section.put, Entries.insert_ofNamed]
      obtain ⟨all, final_eq, names⟩ := ih put later
      refine ⟨all, final_eq, fun name => ?_⟩
      rw [names, Named.mem_names_insert, List.filter_cons_of_pos adds, List.map_cons,
        List.mem_cons, or_assoc]
    · obtain ⟨all, final_eq, names⟩ := ih (parameters.trans start) later
      refine ⟨all, final_eq, fun name => ?_⟩
      rw [names, List.filter_cons_of_neg (by simp [leaves])]

/-- The parameters of a template are those of its entries, and that of the base of the templates
where there are child projects. -/
theorem mem_names_parameters {draft : Draft} (h : drafted s plan n = .ok draft) :
    ∃ named, draft.parameters = Entries.ofNamed named ∧ ∀ name, name ∈ named.map (·.1) ↔
      (name = basePath ∧ children s n ≠ []) ∨
        name ∈ (n.filter (isParameterEntry s)).map (·.1) := by
  obtain ⟨start, base, names⟩ : ∃ start : List (String × Datum),
      baseParameter s n = Entries.ofNamed start ∧
        ∀ name, name ∈ start.map (·.1) ↔ name = basePath ∧ children s n ≠ [] := by
    unfold baseParameter
    cases children s n with
    | nil => exact ⟨[], rfl, by simp⟩
    | cons _ _ => exact ⟨[(basePath, _)], rfl, by simp⟩
  obtain ⟨named, eq, known⟩ := parameters_foldlM base h
  exact ⟨named, eq, fun name => by rw [known, names]⟩

/-! ## The document -/

/-- A rendering is the document of the sections, with the files of the child projects. -/
theorem serialize_eq_ok_iff {outputs : List Value} {r : Rendering} :
    (serialize s plan n outputs).result = .ok r ↔
      ∃ draft listed, drafted s plan n = .ok draft ∧ outputs.mapM (outputForm s) = .ok listed ∧
        Json.document (assembled draft listed) = .ok r.primary ∧
        r.files = (childFiles s n).result := by
  unfold serialize
  cases drawn : drafted s plan n with
  | error fault => simp [Logged.result_pure]
  | ok draft =>
    cases forms : outputs.mapM (outputForm s) with
    | error fault => simp [Logged.result_pure]
    | ok listed =>
      cases written : Json.document (assembled draft listed) with
      | error fault => simp [written, Logged.result_bind, Logged.result_pure]
      | ok primary =>
        obtain ⟨first, files⟩ := r
        simp [written, Logged.result_bind, Logged.result_pure, eq_comm]

/-! ## What the forms refer to -/

theorem elementsOf_texts (names : List String) :
    elementsOf (.texts names) = .ok (names.map .text) := by
  show (names.map Datum.text).mapM _ = _
  rw [mapM_eq_ok_iff, List.forall₂_map_left_iff, List.forall₂_map_right_iff, List.forall₂_same]
  exact fun _ _ => rfl

theorem dependsOn_of_texts {resource : Datum} {names : List String}
    (h : entry resource "DependsOn" = .ok (.texts names)) :
    dependsOn resource = .ok (names.map .text) := by
  unfold dependsOn
  rw [h]
  cases names with
  | nil => rfl
  | cons name names => exact elementsOf_texts (name :: names)

theorem dependsOn_of_null {resource : Datum} (h : entry resource "DependsOn" = .ok .null) :
    dependsOn resource = .ok [] := by
  unfold dependsOn
  rw [h]
  rfl

theorem filterMap_text? (names : List String) :
    (names.map Value.text).filterMap (·.text?) = names := by
  simp [List.filterMap_map, Value.text?]

theorem entry_resourceForm {name : String} {id : Nat} {d : Datum}
    (h : resourceForm s plan n name id = .ok d) :
    ∃ props, renderProps s (form s plan true) (s.props id) = .ok props ∧
      (∃ properties, entry d "Properties" = .ok properties ∧
        references properties = references (.table props)) ∧
      dependsOn d = .ok ((explicitDependencies s plan n name props).map .text) := by
  obtain ⟨props, rendered, eq⟩ := bind_eq_ok_iff.mp h
  refine ⟨props, rendered, ?_⟩
  generalize explicitDependencies s plan n name props = explicit at eq ⊢
  cases eq
  cases props with
  | nil =>
    cases explicit with
    | nil => exact ⟨⟨.null, rfl, rfl⟩, dependsOn_of_null rfl⟩
    | cons dep rest => exact ⟨⟨.null, rfl, rfl⟩, dependsOn_of_texts rfl⟩
  | cons entry others =>
    cases explicit with
    | nil => exact ⟨⟨.table (entry :: others), rfl, rfl⟩, dependsOn_of_null rfl⟩
    | cons dep rest => exact ⟨⟨.table (entry :: others), rfl, rfl⟩, dependsOn_of_texts rfl⟩

/-- A plain resource refers to what its properties refer to, and to its explicit dependencies. -/
theorem refersTo_resourceForm {name : String} {id : Nat} {d : Datum}
    (h : resourceForm s plan n name id = .ok d) :
    ∃ props, renderProps s (form s plan true) (s.props id) = .ok props ∧
      RefersTo d (references (.table props) ++ explicitDependencies s plan n name props) := by
  obtain ⟨props, rendered, ⟨properties, own, same⟩, listed⟩ := entry_resourceForm h
  exact ⟨props, rendered, properties, _, own, listed, by rw [filterMap_text?, same]⟩

/-- The parameter that a stack passes on to its own template. -/
def baseReference : Value × Datum := (.text basePath, .record [("Ref", .text basePath)])

/-- The properties of a stack refer to what its parameters refer to, and it depends on nothing
else. -/
theorem refersTo_stackForm {name : String} {e : Entity} {c : Child} {d : Datum}
    (h : stackForm s plan name e c = .ok d) :
    ∃ given rendered properties, childParameters s c = .ok given ∧
      renderEntries .ok (form s plan true) given = .ok rendered ∧
      entry d "Properties" = .ok properties ∧
      references properties = references (.table (Entries.ofList (baseReference :: rendered))) ∧
      RefersTo d (references properties) := by
  obtain ⟨given, parameters, later⟩ := bind_eq_ok_iff.mp h
  obtain ⟨rendered, formed, eq⟩ := bind_eq_ok_iff.mp later
  cases eq
  refine ⟨given, rendered, _, parameters, formed, rfl, ?_,
    ⟨_, [], rfl, dependsOn_of_null rfl, (List.append_nil _).symm⟩⟩
  show [] ++ ([] ++ (references (.table (Entries.ofList (baseReference :: rendered))) ++ [])) = _
  simp

/-- Every form of an entry is a well-formed resource. -/
theorem Drawn.refersTo {entry : String × Value} {d : Datum} (h : Drawn s plan n entry d) :
    ∃ targets, RefersTo d targets := by
  cases h with
  | stack _ form =>
    obtain ⟨_, _, _, -, -, -, -, refers⟩ := refersTo_stackForm form
    exact ⟨_, refers⟩
  | plain _ form =>
    obtain ⟨props, -, refers⟩ := refersTo_resourceForm form
    exact ⟨_, refers⟩

theorem RefersTo.unique {d : Datum} {targets others : List String} (h : RefersTo d targets)
    (k : RefersTo d others) : targets = others := by
  obtain ⟨properties, listed, props, deps, rfl⟩ := h
  obtain ⟨_, _, props', deps', rfl⟩ := k
  rw [props] at props'
  rw [deps] at deps'
  cases props'
  cases deps'
  rfl

/-- A name is an explicit dependency when it is a dependency on another entry, not a parameter,
that the properties do not refer to. -/
theorem mem_explicitDependencies {name t : String} {props : Section} {e : Nat}
    (held : n.lookup t = some (.entity e)) (plain : isParameter (s.entity e) = false)
    (other : t ≠ name) :
    t ∈ explicitDependencies s plan n name props ↔
      t ∈ plan.dependencies.listed name ∧ t ∉ references (.table props) := by
  unfold explicitDependencies
  rw [Text.mem_sorted, Text.mem_dedupe, List.mem_filter]
  simp [held, plain, other]

end Infra.Template
