import Infra.Proofs.Json.Tree
import Infra.Proofs.Template.Closed
import Infra.Proofs.Template.Files
import Infra.Proofs.Template.Formed

/-!
# The checks see the template

The checks read the template back from its document. What they read is what was rendered, and no
shape that the properties of an entity have makes a check crash.

* `Template.Section.Holds` : sections under different texts; `Template.IsResource` : what the checks
  ask of a resource;
* `Template.Draft.Sound` : the sections that are drafted from values under texts;
  `Template.sound_addEntity` : each entity keeps them so;
* `Template.WellFormed` : what the checks ask of a template; `Template.findCircular_eq_ok`,
  `Template.findUnknown_eq_ok` : they do not crash on it;
* `Template.document_round_trip` : a document of this backend is read as the template that was
  rendered, and the checks do not crash on it.
-/

namespace Infra.Template

open Store

variable {s : Store} {plan : Plan} {n : Namespace}

/-! ## Sections -/

/-- The section holds trees with a property, under different texts. -/
def Section.Holds (P : Datum → Prop) (part : Section) : Prop :=
  ∃ named, part = Entries.ofNamed named ∧ (named.map (·.1)).Nodup ∧ ∀ entry ∈ named, P entry.2

theorem Section.Holds.put {P : Datum → Prop} {part : Section} (held : part.Holds P) (name : String)
    {d : Datum} (own : P d) : (part.put name d).Holds P := by
  obtain ⟨named, rfl, nodup, each⟩ := held
  refine ⟨Named.insert named name d, Entries.insert_ofNamed named name d,
    Named.nodup_insert nodup name d, fun entry mem => ?_⟩
  rcases Named.mem_of_mem_insert mem with before | rfl
  · exact each entry before
  · exact own

theorem Section.Holds.underTexts {P : Datum → Prop} {part : Section} (held : part.Holds P)
    (sub : ∀ d, P d → d.UnderTexts) : (Datum.table part).UnderTexts := by
  obtain ⟨named, rfl, nodup, each⟩ := held
  exact .record nodup fun entry mem => sub _ (each entry mem)

theorem Section.Holds.forall_mem {P : Datum → Prop} {part : Section} (held : part.Holds P) :
    ∀ entry ∈ part, P entry.2 := by
  obtain ⟨named, rfl, -, each⟩ := held
  exact List.forall_mem_map.mpr each

/-! ## Resources -/

/-- What the checks ask of a resource: it is a table, and what it lists under `DependsOn`, if
anything, are texts. -/
def IsResource (d : Datum) : Prop :=
  ∃ entries, d = .table entries ∧ (entries.lookup (.text "DependsOn") = none ∨
    ∃ names, entries.lookup (.text "DependsOn") = some (.texts names))

theorem IsResource.refersTo {d : Datum} (resource : IsResource d) :
    ∃ targets, RefersTo d targets := by
  obtain ⟨entries, rfl, none | ⟨names, listed⟩⟩ := resource
  · have unset : entry (.table entries) "DependsOn" = .ok .null := by
      show Except.ok ((entries.lookup (.text "DependsOn")).getD .null) = _
      rw [none]
      rfl
    exact ⟨_, _, _, rfl, dependsOn_of_null unset, rfl⟩
  · have set : entry (.table entries) "DependsOn" = .ok (.texts names) := by
      show Except.ok ((entries.lookup (.text "DependsOn")).getD .null) = _
      rw [listed]
      rfl
    exact ⟨_, _, _, rfl, dependsOn_of_texts set, rfl⟩

theorem unified_texts (names : List String) : (Datum.texts names).unified = .texts names := by
  rw [Datum.texts, Datum.unified, Datum.unifiedItems_eq, List.map_map]
  rfl

theorem IsResource.unified {d : Datum} (resource : IsResource d) : IsResource d.unified := by
  obtain ⟨entries, rfl, listed⟩ := resource
  refine ⟨_, rfl, ?_⟩
  rw [Datum.lookup_unifiedEntries]
  rcases listed with none | ⟨names, listed⟩
  · exact .inl (by rw [none]; rfl)
  · exact .inr ⟨names, by rw [listed, Option.map_some, unified_texts]⟩

/-! ## Forms under texts -/

/-- The entries are under texts, and so is what their values lead to. -/
def TextEntries (s : Store) (entries : List (Value × Value)) : Prop :=
  ∀ entry ∈ entries, (∃ k, entry.1 = .text k) ∧ s.TextKeys entry.2

theorem textEntries_of_textKeys {v : Value} {entries : List (Value × Value)} (texts : s.TextKeys v)
    (contents : s.contents v = entrySteps entries) : TextEntries s entries := by
  intro entry mem
  have onStep : ⟨[.key entry.1], entry.2⟩ ∈ s.contents v := contents ▸ List.mem_map_of_mem mem
  exact ⟨texts.keys contents entry mem, texts.of_content onStep⟩

section Forms

variable (cross : ∀ name, (plan.cross name).UnderTexts)

include cross

theorem underTexts_form {v : Value} {convert : Bool} {d : Datum} (texts : s.TextKeys v)
    (h : form s plan convert v = .ok d) : d.UnderTexts :=
  (builtOf_renderTo cross texts h).mono fun _ _ => trivial

/-- The form of a resource is a tree under texts, and what the checks ask of one. -/
theorem resourceForm_spec {name : String} {id : Nat} {d : Datum}
    (texts : TextEntries s (s.props id)) (h : resourceForm s plan n name id = .ok d) :
    d.UnderTexts ∧ IsResource d := by
  obtain ⟨props, rendered, eq⟩ := bind_eq_ok_iff.mp h
  have table : (Datum.table props).UnderTexts := by
    obtain ⟨settings, made, kept⟩ := bind_eq_ok_iff.mp rendered
    cases kept
    exact builtOf_table renderedKey_text (fun entry mem => (texts entry (mem_of_mem_present mem)).1)
      made fun entry mem d => underTexts_form cross (texts entry (mem_of_mem_present mem)).2
  generalize explicitDependencies s plan n name props = explicit at eq
  cases eq
  constructor
  · refine .record ?_ fun entry mem => ?_
    · cases props <;> cases explicit <;> simp
    · simp only [List.mem_append, List.mem_ite_nil_left, List.mem_singleton] at mem
      rcases mem with (rfl | ⟨-, rfl⟩) | ⟨-, rfl⟩
      · exact .leaf trivial
      · exact table
      · exact .list (List.forall_mem_map.mpr fun _ _ => .leaf trivial)
  · cases props <;> cases explicit
    · exact ⟨_, rfl, .inl rfl⟩
    · exact ⟨_, rfl, .inr ⟨_, rfl⟩⟩
    · exact ⟨_, rfl, .inl rfl⟩
    · exact ⟨_, rfl, .inr ⟨_, rfl⟩⟩

theorem stackForm_spec {name : String} {e : Entity} {c : Child} {d : Datum}
    (texts : ∀ given, childParameters s c = .ok given → TextEntries s given)
    (h : stackForm s plan name e c = .ok d) : d.UnderTexts ∧ IsResource d := by
  obtain ⟨given, parameters, later⟩ := bind_eq_ok_iff.mp h
  obtain ⟨rendered, formed, eq⟩ := bind_eq_ok_iff.mp later
  cases eq
  have texts := texts given parameters
  have spells : ∀ k, (Except.ok (.text k) : Except Fault Value) = .ok (.text (id k)) := fun _ => rfl
  obtain ⟨named, rfl, each⟩ := exists_named_of_renderEntries (P := fun _ => True) spells
    (fun entry mem => (texts entry mem).1) formed
    fun entry mem d => underTexts_form cross (texts entry mem).2
  have base : (baseReference.2).UnderTexts := builtOf_text trivial
  have settings : ∀ setting ∈ (basePath, baseReference.2) :: named, setting.2.UnderTexts :=
    List.forall_mem_cons.mpr ⟨base, each⟩
  have table := Datum.BuiltOf.ofList settings
  refine ⟨.record (by simp) ?_, _, rfl, .inl rfl⟩
  refine List.forall_mem_cons.mpr ⟨.leaf trivial, List.forall_mem_singleton.mpr ?_⟩
  refine .record (by simp) (List.forall_mem_cons.mpr ⟨builtOf_text trivial,
    List.forall_mem_singleton.mpr table⟩)

end Forms

/-! ## Drafts -/

/-- What the entities of a namespace are rendered from is under texts: their properties, and what
the child projects are given as parameters. -/
def TextSources (s : Store) (n : Namespace) : Prop :=
  ∀ name id, (name, .entity id) ∈ n → s.TextKeys (.mapping (s.entity id).props) ∧
    ∀ c given, (s.entity id).child = some c → childParameters s c = .ok given → TextEntries s given

/-- The sections are under texts, and the resources are what the checks ask of them. -/
structure Draft.Sound (draft : Draft) : Prop where
  parameters : draft.parameters.Holds Datum.UnderTexts
  resources : draft.resources.Holds fun d => d.UnderTexts ∧ IsResource d

/-- An entity keeps sections sound. -/
theorem sound_addEntity (cross : ∀ name, (plan.cross name).UnderTexts) {part : Namespace}
    (texts : TextSources s part) {entry : String × Value} (mem : entry ∈ part)
    {draft next : Draft} (sound : draft.Sound) (h : addEntity s plan n draft entry = .ok next) :
    next.Sound := by
  cases adds_of_addEntity h with
  | property => exact sound
  | parameter _ _ form =>
    exact ⟨sound.parameters.put _ (underTexts_form cross (texts _ _ mem).1 form), sound.resources⟩
  | resource _ _ drawn =>
    refine ⟨sound.parameters, sound.resources.put _ ?_⟩
    cases drawn with
    | stack child form =>
      exact stackForm_spec cross (fun given => (texts _ _ mem).2 _ given child) form
    | plain _ form =>
      exact resourceForm_spec cross (textEntries_of_textKeys (texts _ _ mem).1 rfl) form

theorem holds_baseParameter (s : Store) (n : Namespace) :
    (baseParameter s n).Holds Datum.UnderTexts := by
  unfold baseParameter
  split
  · exact ⟨[], rfl, .nil, nofun⟩
  · refine ⟨[(basePath, _)], rfl, List.nodup_singleton _, List.forall_mem_singleton.mpr ?_⟩
    refine .record (by decide) (List.forall_mem_cons.mpr ⟨.leaf trivial, List.forall_mem_cons.mpr
      ⟨.leaf trivial, List.forall_mem_singleton.mpr (.leaf trivial)⟩⟩)

theorem sound_drafted (cross : ∀ name, (plan.cross name).UnderTexts) (texts : TextSources s n)
    {draft : Draft} (h : drafted s plan n = .ok draft) : draft.Sound := by
  suffices fold : ∀ (part : Namespace) (start : Draft), (∀ entry ∈ part, entry ∈ n) → start.Sound →
      part.foldlM (addEntity s plan n) start = .ok draft → draft.Sound from
    fold n _ (fun _ mem => mem) ⟨holds_baseParameter s n, [], rfl, .nil, nofun⟩ h
  intro part
  induction part with
  | nil =>
    rintro start - sound ⟨⟩
    exact sound
  | cons entry rest ih =>
    intro start sub sound h
    rw [List.foldlM_cons] at h
    obtain ⟨next, step, later⟩ := bind_eq_ok_iff.mp h
    obtain ⟨here, sub⟩ := List.forall_mem_cons.mp sub
    exact ih next sub (sound_addEntity cross texts here sound step) later

theorem underTexts_outputForm {v : Value} {output : String × Datum}
    (h : outputForm s v = .ok output) : output.2.UnderTexts := by
  unfold outputForm at h
  split at h
  · cases h
    refine .record (by simp) (List.forall_mem_singleton.mpr ?_)
    refine .record (by simp) (List.forall_mem_singleton.mpr ?_)
    exact .list (List.forall_mem_map.mpr fun _ _ => .leaf trivial)
  · cases h
  · cases h
  · cases h

theorem Draft.Sound.underTexts {draft : Draft} (sound : draft.Sound)
    {listed : List (String × Datum)} (each : ∀ output ∈ listed, output.2.UnderTexts) :
    (assembled draft listed).UnderTexts := by
  have outputs : (Datum.table (listed.foldl
      (fun (all : Section) output => all.put output.1 output.2) [])).UnderTexts := by
    have table := Datum.BuiltOf.ofList each
    rwa [Entries.ofList, Entries.ofNamed, List.foldl_map] at table
  refine .record ?_ fun entry mem => ?_
  · cases draft.parameters <;> cases listed <;> simp
  · simp only [List.mem_append, List.mem_ite_nil_left, List.mem_singleton] at mem
    rcases mem with ((rfl | ⟨-, rfl⟩) | rfl) | ⟨-, rfl⟩
    · exact .leaf trivial
    · exact sound.parameters.underTexts fun _ own => own
    · exact sound.resources.underTexts fun _ own => own.1
    · exact outputs

/-! ## Checks -/

/-- What the checks ask of a template: its sections are tables, and its resources what they ask of
one. -/
def WellFormed (template : List (Value × Datum)) : Prop :=
  ∃ resources parameters, .table resources = section? template "Resources" ∧
    .table parameters = section? template "Parameters" ∧ ∀ r ∈ resources, IsResource r.2

theorem section?_unifiedEntries {template entries : List (Value × Datum)} {name : String}
    (h : .table entries = section? template name) :
    .table (Datum.unifiedEntries entries) = section? (Datum.unifiedEntries template) name := by
  unfold section? at h ⊢
  rw [Datum.lookup_unifiedEntries]
  cases held : template.lookup (.text name) with
  | none =>
    rw [held] at h
    cases h
    rfl
  | some d =>
    rw [held] at h
    dsimp only [Option.map_some] at h ⊢
    rw [Datum.isFalsy_unified]
    by_cases falsy : d.isFalsy = true
    · rw [if_pos falsy] at h ⊢
      cases h
      rfl
    · rw [if_neg falsy] at h ⊢
      exact congrArg Datum.unified h

theorem WellFormed.unified {template : List (Value × Datum)} (formed : WellFormed template) :
    WellFormed (Datum.unifiedEntries template) := by
  obtain ⟨resources, parameters, listed, given, each⟩ := formed
  refine ⟨_, _, section?_unifiedEntries listed, section?_unifiedEntries given, ?_⟩
  rw [Datum.unifiedEntries_eq]
  exact List.forall_mem_map.mpr fun r mem => (each r mem).unified

theorem findCircular_eq_ok {template : List (Value × Datum)} (formed : WellFormed template) :
    ∃ found, findCircular template = .ok found ∧
      ∀ finding ∈ found, finding.backend = some backend := by
  obtain ⟨resources, parameters, listed, -, each⟩ := formed
  have refers : ∀ r ∈ resources, ∃ targets, RefersTo r.2 targets :=
    fun r mem => (each r mem).refersTo
  choose! targets refers using refers
  refine ⟨_, bind_eq_ok_iff.mpr ⟨_, referenceGraph_eq listed.symm refers, rfl⟩, ?_⟩
  exact List.forall_mem_map.mpr fun _ _ => rfl

/-- The search for unknown references does not crash. -/
theorem findUnknown_eq_ok {template : List (Value × Datum)} (formed : WellFormed template) :
    ∃ found, findUnknown template = .ok found ∧
      ∀ finding ∈ found, finding.backend = some backend := by
  obtain ⟨resources, parameters, listed, given, each⟩ := formed
  have own : ∀ r ∈ resources, ∃ properties, entry r.2 "Properties" = .ok properties := by
    intro r mem
    obtain ⟨_, properties, _, own, -⟩ := (each r mem).refersTo
    exact ⟨properties, own⟩
  choose! properties own using own
  refine ⟨_, findUnknown_eq listed.symm given.symm own, fun finding mem => ?_⟩
  obtain ⟨_, inside, mem⟩ := List.mem_flatten.mp mem
  obtain ⟨r, -, rfl⟩ := List.mem_map.mp inside
  obtain ⟨t, -, rfl⟩ := List.mem_map.mp mem
  rfl

theorem templates_eq_ok {outputs : Outputs} {r : Rendering}
    (held : outputs.lookup backend = some (.full r))
    (each : ∀ text ∈ r.primary :: r.files.map (·.2), ∃ template,
      parse? text = .ok (some template) ∧ WellFormed template) :
    ∃ all, templates outputs = .ok all ∧ ∀ template ∈ all, WellFormed template := by
  choose! template parsed formed using each
  have read : (r.primary :: r.files.map (·.2)).mapM parse? =
      .ok ((r.primary :: r.files.map (·.2)).map fun text => some (template text)) := by
    rw [mapM_eq_ok_iff, List.forall₂_map_right_iff, List.forall₂_same]
    exact parsed
  unfold templates
  rw [held]
  refine ⟨_, bind_eq_ok_iff.mpr ⟨_, read, rfl⟩, fun found mem => ?_⟩
  obtain ⟨given, inside, kept⟩ := List.mem_filterMap.mp mem
  obtain ⟨text, document, rfl⟩ := List.mem_map.mp inside
  obtain ⟨same, -⟩ := Option.filter_eq_some_iff.mp kept
  cases same
  exact formed text document

/-- A check that does not crash on well-formed templates does not crash on their documents. -/
theorem onTemplates_eq_ok {built : Build} {r : Rendering}
    (held : built.outputs.lookup backend = some (.full r))
    (each : ∀ text ∈ r.primary :: r.files.map (·.2), ∃ template,
      parse? text = .ok (some template) ∧ WellFormed template)
    {find : List (Value × Datum) → Except Fault (List Diagnostic)}
    (finds : ∀ template, WellFormed template → ∃ found, find template = .ok found ∧
      ∀ finding ∈ found, finding.backend = some backend) :
    ∃ found, onTemplates find built = .ok found ∧
      ∀ finding ∈ found, finding.backend = some backend := by
  obtain ⟨all, read, formed⟩ := templates_eq_ok held each
  choose! found finds own using finds
  have results : all.mapM find = .ok (all.map found) := by
    rw [mapM_eq_ok_iff, List.forall₂_map_right_iff, List.forall₂_same]
    exact fun template mem => finds template (formed template mem)
  have run : (do (← templates built.outputs).mapM find) = .ok (all.map found) :=
    bind_eq_ok_iff.mpr ⟨all, read, results⟩
  refine ⟨(all.map found).flatten, ?_, fun finding mem => ?_⟩
  · unfold onTemplates
    rw [run]
  · obtain ⟨_, inside, mem⟩ := List.mem_flatten.mp mem
    obtain ⟨template, here, rfl⟩ := List.mem_map.mp inside
    exact own template (formed template here) finding mem

/-- Checks that do not crash leave their own findings. -/
theorem backend_of_mem_runChecks {checks : List Check} {built : Build} {name : Option String}
    (each : ∀ check ∈ checks, ∃ found, check.find built = .ok found ∧
      ∀ finding ∈ found, finding.backend = name)
    (disabled : List String) :
    ∀ finding ∈ (runChecks checks disabled built).result, finding.backend = name := by
  intro finding mem
  rw [runChecks, Logged.result_bind, Logged.result_pure, Logged.result_mapM] at mem
  obtain ⟨_, inside, mem⟩ := List.mem_flatten.mp mem
  obtain ⟨check, known, rfl⟩ := List.mem_map.mp inside
  obtain ⟨found, finds, own⟩ := each check known
  unfold Check.run Check.findings at mem
  rw [finds] at mem
  split at mem
  · cases mem
  · exact own finding mem

/-! ## Documents -/

/-- The document is one of this backend, rendered from values under texts. -/
def IsRendered (text : String) : Prop :=
  ∃ (s : Store) (plan : Plan) (n : Namespace) (outputs : List Value) (r : Rendering),
    TextSources s n ∧ (∀ name, (plan.cross name).UnderTexts) ∧
      (serialize s plan n outputs).result = .ok r ∧ r.primary = text

/-- A document is read as the template that was rendered, which is what the checks ask of one. -/
theorem parse?_serialize {outputs : List Value} {r : Rendering} (texts : TextSources s n)
    (cross : ∀ name, (plan.cross name).UnderTexts)
    (serialized : (serialize s plan n outputs).result = .ok r) :
    ∃ draft listed template, drafted s plan n = .ok draft ∧
      outputs.mapM (outputForm s) = .ok listed ∧ assembled draft listed = .table template ∧
      parse? r.primary = .ok (some (Datum.unifiedEntries template)) ∧ WellFormed template := by
  obtain ⟨draft, listed, drawn, shown, written, -⟩ := serialize_eq_ok_iff.mp serialized
  have sound := sound_drafted cross texts drawn
  have built : (assembled draft listed).UnderTexts := by
    refine sound.underTexts fun output mem => ?_
    obtain ⟨v, -, form⟩ := exists_of_mem_mapM shown mem
    exact underTexts_outputForm form
  have read := Json.read_document built written
  obtain ⟨template, tree⟩ : ∃ template, assembled draft listed = .table template := ⟨_, rfl⟩
  obtain ⟨resources, parameters⟩ := sections_assembled tree
  refine ⟨draft, listed, template, drawn, shown, tree, ?_, draft.resources, draft.parameters,
    resources, parameters, fun r mem => (sound.resources.forall_mem r mem).2⟩
  rw [parse?, read, tree]
  rfl

theorem IsRendered.exists_template {text : String} (rendered : IsRendered text) :
    ∃ template, parse? text = .ok (some template) ∧ WellFormed template := by
  obtain ⟨s, plan, n, outputs, r, texts, cross, serialized, rfl⟩ := rendered
  obtain ⟨_, _, template, -, -, -, parsed, formed⟩ := parse?_serialize texts cross serialized
  exact ⟨_, parsed, formed.unified⟩

/-- A document that is rendered from values under texts is read as the template that was rendered,
with its keys in their order, but for numbers that are none: these have one written form, so it is
the same template where all of them are the standard one. Where the files beside the document are
such documents too, no check of the backend crashes on them. -/
theorem document_round_trip {outputs : List Value} {r : Rendering} (texts : TextSources s n)
    (cross : ∀ name, (plan.cross name).UnderTexts)
    (serialized : (serialize s plan n outputs).result = .ok r)
    (files : ∀ file ∈ r.files, IsRendered file.2) :
    (∃ draft listed template, drafted s plan n = .ok draft ∧
      outputs.mapM (outputForm s) = .ok listed ∧ assembled draft listed = .table template ∧
      parse? r.primary = .ok (some (Datum.unifiedEntries template)) ∧
      ((Datum.table template).BuiltOf (fun v => v.unified = v) →
        parse? r.primary = .ok (some template))) ∧
    ∀ built : Build, built.outputs.lookup backend = some (.full r) →
      (∀ check ∈ checks, ∃ found, check.find built = .ok found) ∧
      ∀ disabled, ∀ finding ∈ (runChecks checks disabled built).result, ∀ id raised,
        finding ≠ Check.crash id raised := by
  constructor
  · obtain ⟨draft, listed, template, drawn, shown, tree, parsed, -⟩ :=
      parse?_serialize texts cross serialized
    refine ⟨draft, listed, template, drawn, shown, tree, parsed, fun standard => ?_⟩
    have same : Datum.table (Datum.unifiedEntries template) = .table template := standard.unified_eq
    rwa [Datum.table.inj same] at parsed
  intro built held
  have documents : ∀ text ∈ r.primary :: r.files.map (·.2), ∃ template,
      parse? text = .ok (some template) ∧ WellFormed template := by
    refine List.forall_mem_cons.mpr ⟨?_, List.forall_mem_map.mpr fun file mem => ?_⟩
    · exact IsRendered.exists_template ⟨s, plan, n, outputs, r, texts, cross, serialized, rfl⟩
    · exact (files file mem).exists_template
  have finds : ∀ check ∈ checks, ∃ found, check.find built = .ok found ∧
      ∀ finding ∈ found, finding.backend = some backend :=
    List.forall_mem_cons.mpr
      ⟨onTemplates_eq_ok held documents fun _ => findCircular_eq_ok,
        List.forall_mem_singleton.mpr <|
          onTemplates_eq_ok held documents fun _ => findUnknown_eq_ok⟩
  refine ⟨fun check mem => (finds check mem).imp fun _ => And.left, fun disabled finding mem => ?_⟩
  rintro id raised rfl
  cases backend_of_mem_runChecks finds disabled _ mem

theorem textSources_of_leaf (h : ∀ name id, (name, .entity id) ∈ n →
    s.props id = [] ∧ ∀ c given, (s.entity id).child = some c →
      childParameters s c = .ok given → given = []) : TextSources s n := by
  intro name id mem
  obtain ⟨props, none⟩ := h name id mem
  have leaf : s.contents (.mapping (s.entity id).props) = [] := by
    show entrySteps (s.props id) = []
    rw [props]
    rfl
  refine ⟨fun w q key within inside _ => ?_, fun c given child parameters => ?_⟩
  · rw [within.eq_of_leaf leaf, leaf] at inside
    cases inside
  · rw [none c given child parameters]
    nofun

theorem underTexts_markOutput (name : String) : (markOutput name).UnderTexts :=
  (builtOf_markOutput name).mono fun _ _ => trivial

theorem isRendered_bucketDocument : IsRendered bucketDocument := by
  refine ⟨_, _, _, _, _, textSources_of_leaf fun name id mem => ?_, underTexts_markOutput,
    serialize_bucket, rfl⟩
  cases List.mem_singleton.mp mem
  exact ⟨rfl, nofun⟩

theorem isRendered_emptyDocument : IsRendered emptyDocument :=
  ⟨_, _, _, _, _, fun _ _ mem => (List.not_mem_nil mem).elim, underTexts_markOutput,
    serialize_empty, rfl⟩

theorem textSources_twins (first second : Rendering) :
    TextSources (twinStore first second) twinNamespace := by
  refine textSources_of_leaf fun name id mem => ?_
  rcases List.mem_cons.mp mem with eq | mem
  · cases eq
    refine ⟨rfl, fun c given child parameters => ?_⟩
    cases child
    cases parameters
    rfl
  · cases List.mem_singleton.mp mem
    refine ⟨rfl, fun c given child parameters => ?_⟩
    cases child
    cases parameters
    rfl

/-- The documents of two child projects, one with a bucket and one that is empty, are read by the
checks without a crash, and so is the document of the project with both. -/
theorem document_round_trip_twins :
    TextSources (twinStore ⟨bucketDocument, []⟩ ⟨emptyDocument, []⟩) twinNamespace ∧
      (∀ name, (twinPlan.cross name).UnderTexts) ∧
      ∃ r, (serialize (twinStore ⟨bucketDocument, []⟩ ⟨emptyDocument, []⟩) twinPlan twinNamespace
        []).result = .ok r ∧
        r.files = [(childFile "a", bucketDocument), (childFile "b", emptyDocument)] ∧
        (∀ file ∈ r.files, IsRendered file.2) ∧
        (∃ template, parse? r.primary = .ok (some template)) ∧
        ∀ finding ∈ (runChecks checks [] (.ofOutputs [(backend, .full r)])).result, ∀ id raised,
          finding ≠ Check.crash id raised := by
  have texts := textSources_twins ⟨bucketDocument, []⟩ ⟨emptyDocument, []⟩
  obtain ⟨r, serialized⟩ := exists_serialize_twins ⟨bucketDocument, []⟩ ⟨emptyDocument, []⟩
  have shipped : r.files = [(childFile "a", bucketDocument), (childFile "b", emptyDocument)] := by
    have built : Carries (children (twinStore ⟨bucketDocument, []⟩ ⟨emptyDocument, []⟩)
        twinNamespace) [(childFile "a", bucketDocument), (childFile "b", emptyDocument)] :=
      .cons rfl serialize_bucket .nil (.cons rfl serialize_empty .nil .nil)
    rw [files_of_carries serialized built]
    rfl
  have files : ∀ file ∈ r.files, IsRendered file.2 := by
    rw [shipped]
    exact List.forall_mem_cons.mpr ⟨isRendered_bucketDocument,
      List.forall_mem_singleton.mpr isRendered_emptyDocument⟩
  obtain ⟨⟨_, _, template, -, -, -, parsed, -⟩, run⟩ :=
    document_round_trip texts underTexts_markOutput serialized files
  exact ⟨texts, underTexts_markOutput, r, serialized, shipped, files, ⟨_, parsed⟩,
    (run (.ofOutputs [(backend, .full r)]) rfl).2 []⟩

end Infra.Template
