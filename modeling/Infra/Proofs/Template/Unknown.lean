import Infra.Proofs.Template.Closed
import Mathlib.Data.List.TakeWhile

/-!
# Names that a template does not define

The check of unknown references and the graph of the resources read the same references off the
properties of a resource. What a resource lists under `DependsOn` counts for the graph only, so that
the check finds an unknown name just if properties refer to it.

* `Template.Refers`, `Template.mem_references_iff` : what a part of a template refers to;
* `Template.DependsOn`, `Template.Sectioned.refersTo` : what a resource refers to;
* `Template.Sectioned` : the sections of a template whose resources are tables;
* `Template.unknownTargets`, `Template.mem_unknownTargets` : the unknown names of a resource;
* `Template.unknownReferences_spec` : the findings of the check, beside the graph.
-/

namespace Infra.Template

/-! ## What a part of a template refers to -/

section Parts

variable {entries : List (Value × Datum)} {name : String}

/-- A name is all of a path, or what stands before its first dot. -/
def Heads (name path : String) : Prop :=
  '.' ∉ name.toList ∧ (path = name ∨ ∃ attr, path = name ++ "." ++ attr)

/-- A part of a template refers to a name: by a `Ref` that names no pseudo-parameter, by the list or
the dotted text of a `Fn::GetAtt`, or in a part of its own. -/
inductive Refers : Datum → String → Prop
  | ref {entries : List (Value × Datum)} {name : String} :
    entries.lookup (.text "Ref") = some (.text name) → ¬ pseudoMark.toList <+: name.toList →
    Refers (.table entries) name
  | getAtt {entries : List (Value × Datum)} {name : String} {rest : List Datum} :
    entries.lookup (.text "Fn::GetAtt") = some (.list (.text name :: rest)) →
    Refers (.table entries) name
  | dotted {entries : List (Value × Datum)} {name path : String} :
    entries.lookup (.text "Fn::GetAtt") = some (.text path) → path ≠ "" → Heads name path →
    Refers (.table entries) name
  | item {items : List Datum} {d : Datum} {name : String} :
    d ∈ items → Refers d name → Refers (.list items) name
  | value {entries : List (Value × Datum)} {entry : Value × Datum} {name : String} :
    entry ∈ entries → Refers entry.2 name → Refers (.table entries) name

theorem refTarget?_eq_some_iff : refTarget? entries = some name ↔
    entries.lookup (.text "Ref") = some (.text name) ∧ ¬ pseudoMark.toList <+: name.toList := by
  rw [refTarget?, ← String.startsWith_string_iff]
  split
  · next found given =>
    rw [given, Option.some.injEq]
    show _ ↔ Datum.leaf (.text found) = .leaf (.text name) ∧ _
    split
    · next marked => grind
    · next unmarked => grind
  · next other =>
    exact iff_of_false (Option.some_ne_none name).symm fun named => other name named.1

theorem heads_iff {path : String} :
    Heads name path ↔ String.ofList (path.toList.takeWhile (· != '.')) = name := by
  constructor
  · rintro ⟨undotted, rfl | ⟨attr, rfl⟩⟩
    · rw [List.takeWhile_eq_self_iff.mpr, String.ofList_toList]
      grind
    · rw [String.toList_append, String.toList_append, List.append_assoc,
        List.takeWhile_append_of_pos (by grind)]
      exact String.toList_injective (by simp)
  · rintro rfl
    rw [Heads, String.toList_ofList]
    refine ⟨fun mem => absurd (List.mem_takeWhile_imp mem) (by decide), ?_⟩
    have split := List.takeWhile_append_dropWhile (p := (· != '.')) (l := path.toList)
    cases rest : path.toList.dropWhile (· != '.') with
    | nil =>
      rw [rest, List.append_nil] at split
      exact .inl (by rw [split, String.ofList_toList])
    | cons dot attr =>
      obtain rfl : dot = '.' := by
        have := List.head?_dropWhile_not (· != '.') path.toList
        simpa [rest] using this
      refine .inr ⟨String.ofList attr, String.toList_injective ?_⟩
      rw [String.toList_append, String.toList_append, String.toList_ofList, String.toList_ofList]
      rw [rest] at split
      simpa using split.symm

theorem getAttTarget?_eq_some_iff : getAttTarget? entries = some name ↔
    (∃ rest, entries.lookup (.text "Fn::GetAtt") = some (.list (.text name :: rest))) ∨
    ∃ path, entries.lookup (.text "Fn::GetAtt") = some (.text path) ∧ path ≠ "" ∧
      Heads name path := by
  simp only [heads_iff]
  rw [getAttTarget?]
  split
  · next found rest given =>
    rw [given]
    simp [Datum.text]
  · next path given =>
    rw [given]
    by_cases blank : path = ""
    · simp [blank, Datum.text]
    · simp [blank, Datum.text]
  · next noList noText =>
    refine iff_of_false (Option.some_ne_none name).symm ?_
    rintro (⟨rest, named⟩ | ⟨path, named, -⟩)
    · exact noList name rest named
    · exact noText path named

theorem mem_references_table : name ∈ references (.table entries) ↔
    refTarget? entries = some name ∨ getAttTarget? entries = some name ∨
      ∃ entry ∈ entries, name ∈ references entry.2 := by
  rw [references, List.mem_append, List.mem_append, Option.mem_toList, Option.mem_toList,
    mem_referencesOfEntries, or_assoc]

theorem refers_of_mem : {d : Datum} → name ∈ references d → Refers d name
  | .leaf _, h => absurd h List.not_mem_nil
  | .list items, h => by
    obtain ⟨item, mem, inside⟩ := mem_referencesOfItems.mp h
    exact .item mem (refers_of_mem inside)
  | .table entries, h => by
    rcases mem_references_table.mp h with ref | getAtt | ⟨entry, mem, inside⟩
    · obtain ⟨named, unmarked⟩ := refTarget?_eq_some_iff.mp ref
      exact .ref named unmarked
    · rcases getAttTarget?_eq_some_iff.mp getAtt with ⟨rest, named⟩ | ⟨path, named, some, heads⟩
      · exact .getAtt named
      · exact .dotted named some heads
    · exact .value mem (refers_of_mem inside)
termination_by d => d
decreasing_by
  · have := List.sizeOf_lt_of_mem mem
    rw [Datum.list.sizeOf_spec]
    omega
  · have := List.sizeOf_lt_of_mem mem
    rw [Prod.mk.sizeOf_spec] at this
    rw [Datum.table.sizeOf_spec]
    omega

/-- The scan of a part finds what it refers to. -/
theorem mem_references_iff {d : Datum} : name ∈ references d ↔ Refers d name := by
  refine ⟨refers_of_mem, fun refers => ?_⟩
  induction refers with
  | ref named unmarked =>
    exact mem_references_table.mpr (.inl (refTarget?_eq_some_iff.mpr ⟨named, unmarked⟩))
  | getAtt named =>
    exact mem_references_table.mpr (.inr (.inl (getAttTarget?_eq_some_iff.mpr (.inl ⟨_, named⟩))))
  | dotted named some heads =>
    exact mem_references_table.mpr <| .inr <| .inl <|
      getAttTarget?_eq_some_iff.mpr <| .inr ⟨_, named, some, heads⟩
  | item mem _ ih => exact mem_referencesOfItems.mpr ⟨_, mem, ih⟩
  | value mem _ ih => exact mem_references_table.mpr (.inr (.inr ⟨_, mem, ih⟩))

end Parts

/-! ## What a resource refers to -/

/-- A resource lists a name under `DependsOn`, alone or as one of several. -/
inductive DependsOn (resource : Datum) : String → Prop
  | one {name : String} : resource.get? "DependsOn" = some (.text name) → name ≠ "" →
    DependsOn resource name
  | several {name : String} {names : List String} :
    resource.get? "DependsOn" = some (.texts names) → name ∈ names → DependsOn resource name

/-- A template with sections: its resources are tables under different names, which list names under
`DependsOn` or nothing. -/
structure Sectioned (template : List (Value × Datum)) (draft : Draft) : Prop where
  resources : section? template "Resources" = .table draft.resources
  parameters : section? template "Parameters" = .table draft.parameters
  once : (draft.resources.map (·.1)).Nodup
  named : ∀ r ∈ draft.resources, ∃ name, r.1 = .text name
  tables : ∀ r ∈ draft.resources, ∃ entries, r.2 = .table entries
  listed : ∀ r ∈ draft.resources, r.2.get? "DependsOn" = none ∨
    (∃ name, r.2.get? "DependsOn" = some (.text name)) ∨
    ∃ names, r.2.get? "DependsOn" = some (.texts names)

namespace Sectioned

variable {template : List (Value × Datum)} {draft : Draft}

theorem exists_dependsOn {resource : Datum} {entries : List (Value × Datum)}
    (table : resource = .table entries)
    (listed : resource.get? "DependsOn" = none ∨
      (∃ name, resource.get? "DependsOn" = some (.text name)) ∨
      ∃ names, resource.get? "DependsOn" = some (.texts names)) :
    ∃ names : List String, dependsOn resource = .ok (names.map .text) ∧
      ∀ t, t ∈ names ↔ DependsOn resource t := by
  subst table
  have own : entry (.table entries) "DependsOn" = .ok ((Datum.table entries).field "DependsOn") :=
    rfl
  rcases listed with absent | ⟨name, one⟩ | ⟨names, several⟩
  · rw [Datum.field, absent] at own
    refine ⟨[], dependsOn_of_null own, fun t => iff_of_false List.not_mem_nil ?_⟩
    rintro (⟨given, -⟩ | ⟨given, -⟩)
    · cases absent.symm.trans given
    · cases absent.symm.trans given
  · rw [Datum.field, one] at own
    by_cases blank : name = ""
    · subst blank
      refine ⟨[], by rw [dependsOn, own]; rfl, fun t => iff_of_false List.not_mem_nil ?_⟩
      rintro (⟨given, some⟩ | ⟨given, -⟩)
      · cases one.symm.trans given
        exact some rfl
      · cases one.symm.trans given
    · have listed : dependsOn (.table entries) = .ok [.text name] := by
        rw [dependsOn, own]
        show Except.ok (if name.isEmpty then _ else _) = _
        rw [if_neg (by simpa using blank)]
      refine ⟨[name], listed, fun t => ⟨fun mem => ?_, ?_⟩⟩
      · cases List.mem_singleton.mp mem
        exact .one one blank
      · rintro (⟨given, -⟩ | ⟨given, -⟩)
        · cases one.symm.trans given
          exact List.mem_singleton_self _
        · cases one.symm.trans given
  · rw [Datum.field, several] at own
    refine ⟨names, dependsOn_of_texts own, fun t => ⟨.several several, ?_⟩⟩
    rintro (⟨given, -⟩ | ⟨given, mem⟩)
    · cases several.symm.trans given
    · have same := several.symm.trans given
      rw [Option.some.injEq, Datum.texts, Datum.texts, Datum.list.injEq] at same
      have injective : Function.Injective Datum.text := fun _ _ eq => by cases eq; rfl
      rwa [List.map_injective_iff.mpr injective same]

/-- A resource refers to what its properties refer to and to what it lists. -/
theorem refersTo (formed : Sectioned template draft) {r : Value × Datum}
    (mem : r ∈ draft.resources) : ∃ targets, RefersTo r.2 targets ∧
      ∀ t, t ∈ targets ↔ Refers (r.2.field "Properties") t ∨ DependsOn r.2 t := by
  obtain ⟨entries, table⟩ := formed.tables r mem
  obtain ⟨names, listed, same⟩ := exists_dependsOn table (formed.listed r mem)
  refine ⟨_, ⟨r.2.field "Properties", _, by rw [table]; rfl, listed, rfl⟩, fun t => ?_⟩
  rw [filterMap_text?, List.mem_append, mem_references_iff, same]

theorem referenceGraph (formed : Sectioned template draft) :
    ∃ g, Template.referenceGraph template = .ok g ∧
      ∀ r ∈ draft.resources, ∀ t, t ∈ g.listed (keyName r.1) ↔
        (Refers (r.2.field "Properties") t ∨ DependsOn r.2 t) ∧
        (∃ d, (.text t, d) ∈ draft.resources) ∧ t ≠ keyName r.1 := by
  choose! targets refers same using fun r mem => formed.refersTo (r := r) mem
  have keys : (draft.resources.map fun r => keyName r.1).Nodup := by
    refine List.Nodup.of_map Value.text ?_
    rw [List.map_map, List.map_congr_left (g := (·.1)) fun r mem => ?_]
    · exact formed.once
    · obtain ⟨name, key⟩ := formed.named r mem
      rw [Function.comp, key]
      rfl
  refine ⟨_, referenceGraph_eq formed.resources refers, fun r mem t => ?_⟩
  have known : (∃ u ∈ draft.resources, keyName u.1 = t) ↔
      ∃ d, (.text t, d) ∈ draft.resources := by
    constructor
    · rintro ⟨⟨key, d⟩, inside, rfl⟩
      obtain ⟨name, rfl⟩ := formed.named _ inside
      exact ⟨d, inside⟩
    · exact fun ⟨d, inside⟩ => ⟨_, inside, rfl⟩
  rw [mem_listed_graphOf keys mem, same r mem, known]

end Sectioned

/-! ## What the check finds -/

/-- The names that a template does not define and the properties of a resource refer to, in
order. -/
def unknownTargets (draft : Draft) (resource : Datum) : List String :=
  let known := (draft.resources.map (·.1) ++ draft.parameters.map (·.1)).filterMap (·.text?)
  Text.sorted <| Text.dedupe <|
    (references (resource.field "Properties")).filter (!known.contains ·)

theorem mem_known_iff {draft : Draft} {t : String} :
    t ∈ (draft.resources.map (·.1) ++ draft.parameters.map (·.1)).filterMap (·.text?) ↔
      draft.Defines t := by
  have text : ∀ v : Value, v.text? = some t ↔ v = .text t := by
    rintro (_ | _) <;> simp [Value.text?]
  simp [Draft.Defines, text]

theorem mem_unknownTargets {draft : Draft} {resource : Datum} {t : String} :
    t ∈ unknownTargets draft resource ↔
      Refers (resource.field "Properties") t ∧ ¬ draft.Defines t := by
  rw [unknownTargets, Text.mem_sorted, Text.mem_dedupe, List.mem_filter, mem_references_iff,
    Bool.not_eq_true', ← Bool.not_eq_true, List.contains_iff_mem, mem_known_iff]

theorem Sectioned.findUnknown {template : List (Value × Datum)} {draft : Draft}
    (formed : Sectioned template draft) :
    Template.findUnknown template = .ok (draft.resources.flatMap fun r =>
      (unknownTargets draft r.2).map (unknownFound (keyName r.1))) := by
  have own : ∀ r ∈ draft.resources, entry r.2 "Properties" = .ok (r.2.field "Properties") := by
    intro r mem
    obtain ⟨entries, table⟩ := formed.tables r mem
    rw [table]
    rfl
  rw [findUnknown_eq formed.resources formed.parameters own, List.flatMap_def]
  rfl

theorem onTemplates_of_forall {built : Build} {listed : List (List (Value × Datum))}
    {find : List (Value × Datum) → Except Fault (List Diagnostic)}
    {found : List (Value × Datum) → List Diagnostic} (given : templates built.outputs = .ok listed)
    (each : ∀ template ∈ listed, find template = .ok (found template)) :
    onTemplates find built = .ok (listed.flatMap found) := by
  have all : (do (← templates built.outputs).mapM find) = .ok (listed.map found) := by
    rw [given]
    show listed.mapM find = _
    rw [mapM_eq_ok_iff, List.forall₂_map_right_iff, List.forall₂_same]
    exact each
  rw [onTemplates, all, List.flatMap_def]

/-- For all templates of a build whose resources are tables, the check succeeds and goes through the
resources in order. It reports the names that the properties of a resource refer to and that the
template does not define, each once and in order. The graph of the resources reads the same
references, and counts what a resource lists under `DependsOn` as well. -/
theorem unknownReferences_spec {built : Build} {listed : List (List (Value × Datum))}
    (given : templates built.outputs = .ok listed) {draft : List (Value × Datum) → Draft}
    (formed : ∀ template ∈ listed, Sectioned template (draft template)) :
    ∃ targets : Draft → Datum → List String,
      unknownReferences.find built = .ok (listed.flatMap fun template =>
        (draft template).resources.flatMap fun r =>
          (targets (draft template) r.2).map (unknownFound (keyName r.1))) ∧
      ∀ template ∈ listed, ∃ g, referenceGraph template = .ok g ∧
        ∀ r ∈ (draft template).resources,
          (targets (draft template) r.2).Pairwise (· < ·) ∧
          (∀ t, t ∈ targets (draft template) r.2 ↔
            Refers (r.2.field "Properties") t ∧ ¬ (draft template).Defines t) ∧
          ∀ t, t ∈ g.listed (keyName r.1) ↔
            (Refers (r.2.field "Properties") t ∨ DependsOn r.2 t) ∧
            (∃ d, (.text t, d) ∈ (draft template).resources) ∧ t ≠ keyName r.1 := by
  refine ⟨unknownTargets, onTemplates_of_forall given fun template mem =>
    (formed template mem).findUnknown, fun template mem => ?_⟩
  obtain ⟨g, graph, edges⟩ := (formed template mem).referenceGraph
  exact ⟨g, graph, fun r inside => ⟨Text.pairwise_lt_sorted_dedupe _,
    fun t => mem_unknownTargets, edges r inside⟩⟩

/-- A worker that depends on a queue and an alarm, and refers to a zone, a stage and a role. -/
def worker : Datum :=
  .record [("DependsOn", .texts ["queue", "alarm"]), ("Properties", .list [
    .record [("Ref", .text "zone")], .record [("Ref", .text "stage")],
    .record [("Fn::GetAtt", .text "role.Arn")]])]

/-- Of what the worker refers to, the queue is a resource and the stage a parameter. -/
def workerDraft : Draft where
  resources := [(.text "worker", worker), (.text "queue", .record [])]
  parameters := [(.text "stage", .record [])]

def workerTemplate : List (Value × Datum) :=
  [(.text "Parameters", .table workerDraft.parameters),
    (.text "Resources", .table workerDraft.resources)]

def workerDocument : String :=
  "\x7b\"Parameters\": \x7b\"stage\": \x7b\x7d\x7d, \"Resources\": \x7b\"worker\": \x7b" ++
    "\"DependsOn\": [\"queue\", \"alarm\"], \"Properties\": [\x7b\"Ref\": \"zone\"\x7d, " ++
    "\x7b\"Ref\": \"stage\"\x7d, \x7b\"Fn::GetAtt\": \"role.Arn\"\x7d]\x7d, " ++
    "\"queue\": \x7b\x7d\x7d\x7d"

set_option maxRecDepth 4000 in
theorem templates_workerDocument :
    templates [(backend, .text workerDocument)] = .ok [workerTemplate] := by
  have read : Json.read workerDocument = .ok (.table workerTemplate) := by
    unfold Json.read Json.readWithin workerDocument
    simp only [String.toList_append]
    cbv
  have parsed : [workerDocument].mapM parse? = .ok [some workerTemplate] :=
    mapM_eq_ok_iff.mpr (.cons (by rw [parse?, read]) .nil)
  show (do let parsed ← [workerDocument].mapM parse?; _) = _
  rw [parsed]
  rfl

theorem sectioned_worker : Sectioned workerTemplate workerDraft where
  resources := rfl
  parameters := rfl
  once := by decide
  named := by
    intro r mem
    simp only [workerDraft, List.mem_cons, List.not_mem_nil, or_false] at mem
    rcases mem with rfl | rfl
    · exact ⟨_, rfl⟩
    · exact ⟨_, rfl⟩
  tables := by
    intro r mem
    simp only [workerDraft, List.mem_cons, List.not_mem_nil, or_false] at mem
    rcases mem with rfl | rfl
    · exact ⟨_, rfl⟩
    · exact ⟨_, rfl⟩
  listed := by
    intro r mem
    simp only [workerDraft, List.mem_cons, List.not_mem_nil, or_false] at mem
    rcases mem with rfl | rfl
    · exact .inr (.inr ⟨["queue", "alarm"], rfl⟩)
    · exact .inl rfl

/-- The role and the zone are reported, and the alarm is not. -/
theorem unknownReferences_spec_worker :
    templates [(backend, .text workerDocument)] = .ok [workerTemplate] ∧
      Sectioned workerTemplate workerDraft ∧ ∃ ofWorker ofQueue : List String,
        unknownReferences.find (.ofOutputs [(backend, .text workerDocument)]) =
          .ok (ofWorker.map (unknownFound "worker") ++ ofQueue.map (unknownFound "queue")) ∧
        ofWorker.Pairwise (· < ·) ∧ "role" ∈ ofWorker ∧ "zone" ∈ ofWorker ∧
        "stage" ∉ ofWorker ∧ "alarm" ∉ ofWorker ∧
        ∃ g, referenceGraph workerTemplate = .ok g ∧ "queue" ∈ g.listed "worker" := by
  refine ⟨templates_workerDocument, sectioned_worker, ?_⟩
  have formed : ∀ template ∈ [workerTemplate], Sectioned template workerDraft :=
    List.forall_mem_singleton.mpr sectioned_worker
  have given : templates (Build.ofOutputs [(backend, .text workerDocument)]).outputs =
    .ok [workerTemplate] := templates_workerDocument
  obtain ⟨targets, found, each⟩ := unknownReferences_spec given formed
  obtain ⟨g, graph, edges⟩ := each _ (List.mem_singleton_self _)
  obtain ⟨order, unknown, listed⟩ := edges _ List.mem_cons_self
  have properties : references (worker.field "Properties") = ["zone", "stage", "role"] := by
    cbv
  have undefined (t : String) :
      t ∈ targets workerDraft worker ↔ t ∈ ["zone", "stage", "role"] ∧ ¬ workerDraft.Defines t := by
    rw [← properties, mem_references_iff]
    exact unknown t
  simp only [← mem_known_iff] at undefined
  refine ⟨targets workerDraft worker, targets workerDraft (.record []),
    found.trans ?_, order, (undefined _).mpr (by decide), (undefined _).mpr (by decide),
    fun mem => absurd ((undefined _).mp mem) (by decide),
    fun mem => absurd ((undefined _).mp mem) (by decide), g, graph, (listed _).mpr ?_⟩
  · simp [workerDraft, keyName]
  · exact ⟨.inr (.several rfl (by decide)), ⟨_, List.mem_cons_of_mem _ (List.mem_singleton_self _)⟩,
      by decide⟩

/-- A resource that depends on one that no section has. -/
def ghostDraft : Draft where
  resources := [(.text "worker", .record [("DependsOn", .text "ghost")])]
  parameters := []

def ghostTemplate : List (Value × Datum) := [(.text "Resources", .table ghostDraft.resources)]

def ghostDocument : String :=
  "\x7b\"Resources\": \x7b\"worker\": \x7b\"DependsOn\": \"ghost\"\x7d\x7d\x7d"

/-- The worker depends on a name that the template does not define, and the check finds nothing. -/
theorem depended_name_not_found :
    templates [(backend, .text ghostDocument)] = .ok [ghostTemplate] ∧
      Sectioned ghostTemplate ghostDraft ∧
      (∃ r ∈ ghostDraft.resources, DependsOn r.2 "ghost") ∧ ¬ ghostDraft.Defines "ghost" ∧
      unknownReferences.find (.ofOutputs [(backend, .text ghostDocument)]) = .ok [] := by
  have formed : Sectioned ghostTemplate ghostDraft := {
    resources := rfl
    parameters := rfl
    once := by decide
    named := List.forall_mem_singleton.mpr ⟨_, rfl⟩
    tables := List.forall_mem_singleton.mpr ⟨_, rfl⟩
    listed := List.forall_mem_singleton.mpr (.inr (.inl ⟨"ghost", rfl⟩)) }
  refine ⟨by cbv, formed, ⟨_, List.mem_singleton_self _, .one rfl (by decide)⟩, ?_, by cbv⟩
  rw [← mem_known_iff]
  decide

end Infra.Template
