import Infra.Proofs.Discovery.Collect
import Infra.Proofs.Discovery.Dependency
import Infra.Proofs.Discovery.Naming
import Infra.Proofs.Template.Draft
import Infra.Proofs.Template.Rendering
import Mathlib

/-!
# The template and the dependency graph agree

A rendered resource refers to another resource of its template exactly when the dependency graph
has an edge between them. What is rendered comes from values within reach (`Shows.exists_named`),
so that it is in the graph; and what the graph has beyond that stands under `DependsOn`.

* `Template.planOf` : the plan of one part of a namespace;
* `Store.dependsOn_of_namedWithin` : the names within reach of an entity are its dependencies;
* `Template.mem_referenceGraph_iff` : the graph that is read off the document has the edges of the
  dependency graph.

Mathlib is imported whole, for the equations of its functions by which closed stores are evaluated.
-/

namespace Infra

open Store

variable {s : Store} {n : Namespace}

/-- A resource of the namespace whose name is within reach of another entity is a dependency. -/
theorem Store.dependsOn_of_namedWithin (names : (n.map (·.1)).Nodup)
    (once : (n.entities.map (·.2)).Nodup)
    (entities : ∀ id name, (s.entity id).name = some name → (name, .entity id) ∈ n)
    (references : ∀ name id ref, (name, .entity id) ∈ n → s.Reaches id (.reference ref) →
      (s.reference ref).name = (Arena.ofNamespace n).nameOf? (s.reference ref).parent)
    {name t : String} {id e : Nat} (here : (name, .entity id) ∈ n) (there : (t, .entity e) ∈ n)
    (kind : (s.entity e).kind = .resource) (other : t ≠ name) (within : s.NamedWithin id t) :
    s.DependsOn n id t := by
  have unique : ∀ f, (t, Value.entity f) ∈ n → f = e := by
    intro f mem
    have eq := List.inj_on_of_nodup_map names mem there rfl
    cases eq
    rfl
  refine ⟨e, there, kind, ?_⟩
  rcases within with ⟨ref, reaches, named⟩ | ⟨f, reaches, -, named⟩
  · rw [references name id ref here reaches] at named
    obtain ⟨⟨_, f⟩, found, rfl⟩ := Option.map_eq_some_iff.mp named
    obtain ⟨mem, parent⟩ := (Arena.entry?_eq_some_iff once).mp found
    obtain rfl := unique f (Namespace.mem_entities.mp mem)
    refine .inl ⟨ref, reaches, parent.symm, fun same => other ?_⟩
    rw [handle_inj] at same
    subst same
    have eq := List.inj_on_of_nodup_map once (Namespace.mem_entities.mpr here)
      (Namespace.mem_entities.mpr there) rfl
    exact congrArg Prod.fst eq.symm
  · obtain rfl := unique f (entities f t named)
    exact .inr reaches

namespace Template

/-- The plan to render one part of a namespace: the names of the part, the marker for all others,
and the dependencies of the namespace. -/
def planOf (s : Store) (n part : Namespace) : Plan :=
  ⟨part.map (·.1), markOutput, (s.dependencyGraph n none).result⟩

theorem drafted_of_serialize {plan : Plan} {r : Rendering}
    (h : (serialize s plan n []).result = .ok r) : ∃ draft, drafted s plan n = .ok draft := by
  obtain ⟨draft, _, drawn, -⟩ := serialize_eq_ok_iff.mp h
  exact ⟨draft, drawn⟩

theorem sections_assembled {draft : Draft} {listed : List (String × Datum)}
    {template : List (Value × Datum)} (h : assembled draft listed = .table template) :
    .table draft.resources = section? template "Resources" ∧
      .table draft.parameters = section? template "Parameters" := by
  obtain ⟨parameters, resources⟩ := draft
  cases parameters <;> cases listed <;> cases h <;> cases resources <;> exact ⟨rfl, rfl⟩

theorem resources_assembled {draft : Draft} {template : List (Value × Datum)}
    (h : assembled draft [] = .table template) : section? template "Resources" =
      .table draft.resources :=
  (sections_assembled h).1.symm

/-- What a resource of a part refers to in its properties is named within its reach. -/
theorem namedWithin_of_mem_references {part : Namespace} {props : Section} {id : Nat}
    (plain : s.PlainProps id)
    (rendered : renderProps s (form s (planOf s n part) true) (s.props id) = .ok props) {t : String}
    (mem : t ∈ references (.table props)) : s.NamedWithin id t := by
  obtain ⟨entry, inside, shows⟩ := (mem_references_props rfl plain.plainEntries rendered).mp mem
  obtain ⟨k, -, given⟩ := mem_of_mem_respelled inside
  have reaches : s.Reaches id entry.2 := .prop (mem_of_mem_present given)
  rcases shows.exists_named with ⟨ref, within, named, -⟩ | ⟨e, within, kind, named⟩
  · exact .inl ⟨ref, reaches.within within, named⟩
  · exact .inr ⟨e, reaches.within within, kind, named⟩

/-- The graph read off a document that was rendered has the edges of the dependency graph. -/
theorem mem_referenceGraph_iff {s₀ s₁ s : Store} {units : List LoadedUnit} {n part : Namespace}
    {arena : Arena} {r : Rendering} (fresh : ∀ id, (s₀.entity id).name = none)
    (collected : (s₀.collect units).result = (s₁, .ok n))
    (resolved : (s₁.resolve n).result = (s, .ok arena)) (names : (part.map (·.1)).Nodup)
    (sub : ∀ entry ∈ part, entry ∈ n)
    (serialized : (serialize s (planOf s n part) part []).result = .ok r)
    (inverse : ∀ draft, drafted s (planOf s n part) part = .ok draft →
      Json.read r.primary = .ok (assembled draft [])) :
    ∃ template g, parse? r.primary = .ok (some template) ∧ referenceGraph template = .ok g ∧
      ∀ name id t e, (name, .entity id) ∈ part → stands s (name, .entity id) →
        (s.entity id).child = none → s.PlainProps id → (t, .entity e) ∈ part →
        stands s (t, .entity e) → t ≠ name →
        (t ∈ g.listed name ↔ t ∈ (s.dependencyGraph n none).result.listed name) := by
  obtain ⟨draft, drawn⟩ := drafted_of_serialize serialized
  have belong := drafted_resources names drawn
  have keys : (draft.resources.map fun r => keyName r.1).Nodup := by
    rw [keyName_of_belongs belong]
    exact (List.filter_sublist.map _).nodup names
  obtain ⟨template, tree⟩ : ∃ template, assembled draft [] = .table template := ⟨_, rfl⟩
  have formed : ∀ r ∈ draft.resources, ∃ targets, RefersTo r.2 targets := by
    intro r mem
    obtain ⟨entry, -, -, form⟩ := exists_left_of_mem belong mem
    exact form.refersTo
  choose! targets formed using formed
  refine ⟨template, _, ?_, referenceGraph_eq (resources_assembled tree) formed, ?_⟩
  · rw [parse?, inverse draft drawn, tree]
  intro name id t e here standing single plain there standing_t other
  -- The resource of the entity, what it refers to, and the resource that `t` names.
  obtain ⟨u, inside, key, drawn⟩ :=
    exists_right_of_mem belong (List.mem_filter.mpr ⟨here, standing⟩)
  obtain ⟨v, inside_t, key_t, -⟩ :=
    exists_right_of_mem belong (List.mem_filter.mpr ⟨there, standing_t⟩)
  have label : keyName u.1 = name := by rw [key, keyName]
  have label_t : keyName v.1 = t := by rw [key_t, keyName]
  obtain ⟨props, rendered, refers⟩ : ∃ props,
      renderProps s (form s (planOf s n part) true) (s.props id) = .ok props ∧
        RefersTo u.2 (references (.table props) ++
          explicitDependencies s (planOf s n part) part name props) := by
    cases drawn with
    | stack child _ =>
      rw [single] at child
      cases child
    | plain _ form => exact refersTo_resourceForm form
  have edge : t ∈ (graphOf draft.resources targets).listed name ↔
      t ∈ references (.table props) ∨
        t ∈ explicitDependencies s (planOf s n part) part name props := by
    rw [← label, mem_listed_graphOf keys inside, (formed u inside).unique refers, List.mem_append,
      label]
    exact and_iff_left ⟨⟨v, inside_t, label_t⟩, other⟩
  have resource : (s.entity e).kind = .resource ∧ isParameter (s.entity e) = false := by
    simpa [stands] using standing_t
  rw [edge, mem_explicitDependencies ((lookup_eq_some_iff_mem names).mpr there) resource.2 other]
  -- Only what the properties refer to is left to be found in the graph.
  constructor
  · rintro (mem | ⟨dep, -⟩)
    · obtain ⟨once, values⟩ := collect_spec collected
      have same : SameButProps s₀ s₁ := by
        have all := sameButProps_collect s₀ units
        rwa [collected] at all
      have unnamed : ∀ id, (s₁.entity id).name = none := fun id => (same.name id).trans (fresh id)
      obtain ⟨entities, references⟩ := names_of_resolve unnamed resolved
      have depends := dependsOn_of_namedWithin once (Namespace.entities_nodup values) entities
        references (sub _ here) (sub _ there) resource.1 other
        (namedWithin_of_mem_references plain rendered mem)
      rw [listed_dependencyGraph once none (sub _ here)]
      exact (mem_dependencies_ofNamespace (Namespace.entities_nodup values)).mpr depends
    · exact dep
  · intro dep
    by_cases mem : t ∈ references (.table props)
    · exact .inl mem
    · exact .inr ⟨dep, mem⟩

/-- The document of a bucket and a queue that reads an attribute of it. -/
def queueDocument : String :=
"\x7b
  \"FormatVersion\": \"tessera-template/1\",
  \"Resources\": \x7b
    \"bucket\": \x7b
      \"Type\": \"Bucket\"
    \x7d,
    \"queue\": \x7b
      \"Type\": \"Queue\",
      \"Properties\": \x7b
        \"Source\": \x7b
          \"Fn::GetAtt\": [
            \"bucket\",
            \"Arn\"
          ]
        \x7d
      \x7d
    \x7d
  \x7d
\x7d"

/-- The sections of that document. -/
def queueDraft : Draft where
  parameters := []
  resources := [(.text "bucket", .record [("Type", .text "Bucket")]),
    (.text "queue", .record [("Type", .text "Queue"),
      ("Properties", .record [("Source", .record [("Fn::GetAtt", .texts ["bucket", "Arn"])])])])]

set_option maxRecDepth 4000 in
theorem read_queueDocument : Json.read queueDocument = .ok (assembled queueDraft []) := by
  -- The characters of the literal, without decoding the bytes of the text.
  have chars : queueDocument.toList = _ := String.toList_ofList
  rw [Json.read, Json.readWithin, chars]
  rfl

theorem plainProps_queue (h : SameButNames queueStore s) : s.PlainProps 1 := by
  have props : s.props 1 = [(.text "source", .reference 0)] := h.props 1
  have only : ∀ v, s.Reaches 1 v → v = .reference 0 := by
    intro v reaches
    refine reaches.mem_of_closed (P := fun v => v = .reference 0) (fun q mem => ?_)
      fun v eq q mem => ?_
    · obtain ⟨key, inside⟩ := value_of_mem_entrySteps mem
      rw [props, List.mem_singleton] at inside
      exact congrArg Prod.snd inside
    · rw [eq] at mem
      cases mem
  refine ⟨fun key reached => ?_, fun i reaches => nomatch only _ reaches⟩
  rcases reached with ⟨v, mem⟩ | ⟨m, v, reaches, -⟩ | ⟨e, v, reaches, -⟩
  · rw [props, List.mem_singleton] at mem
    exact ⟨"source", congrArg Prod.fst mem, by decide +kernel, by decide +kernel⟩
  · cases only _ reaches
  · cases only _ reaches

set_option maxRecDepth 4000 in
/-- The document of the queue refers to the bucket as its dependencies do. -/
theorem mem_referenceGraph_iff_queue :
    let n : Namespace := [("bucket", .entity 0), ("queue", .entity 1)]
    let s := (queueStore.assignNames n).nameReference 0 "bucket"
    (∀ id, (queueStore.entity id).name = none) ∧
      (queueStore.collect [⟨"unit", n⟩]).result = (queueStore, .ok n) ∧
      (queueStore.resolve n).result = (s, .ok (Arena.ofNamespace n)) ∧
      (n.map (·.1)).Nodup ∧ (serialize s (planOf s n n) n []).result = .ok ⟨queueDocument, []⟩ ∧
      (∀ draft, drafted s (planOf s n n) n = .ok draft →
        Json.read queueDocument = .ok (assembled draft [])) ∧
      ∃ template g, parse? queueDocument = .ok (some template) ∧
        referenceGraph template = .ok g ∧
          ("bucket" ∈ g.listed "queue" ↔
            "bucket" ∈ (s.dependencyGraph n none).result.listed "queue") := by
  intro n s
  have fresh : ∀ id, (queueStore.entity id).name = none
    | 0 => rfl
    | 1 => rfl
    | _ + 2 => rfl
  have collected : (queueStore.collect [⟨"unit", n⟩]).result = (queueStore, .ok n) := rfl
  have resolved : (queueStore.resolve n).result = (s, .ok (Arena.ofNamespace n)) := by cbv
  have names : (n.map (·.1)).Nodup := by decide
  have drawn : drafted s (planOf s n n) n = .ok queueDraft := by cbv
  have serialized : (serialize s (planOf s n n) n []).result = .ok ⟨queueDocument, []⟩ := by cbv
  have inverse : ∀ draft, drafted s (planOf s n n) n = .ok draft →
      Json.read queueDocument = .ok (assembled draft []) := by
    intro draft eq
    rw [drawn] at eq
    cases eq
    exact read_queueDocument
  have plain : s.PlainProps 1 :=
    plainProps_queue ((sameButNames_assignNames queueStore n).trans (.nameReference _ _ _))
  obtain ⟨template, g, parsed, graph, edges⟩ :=
    mem_referenceGraph_iff fresh collected resolved names (fun _ mem => mem) serialized inverse
  refine ⟨fresh, collected, resolved, names, serialized, inverse, template, g, parsed, graph, ?_⟩
  exact edges "queue" 1 "bucket" 0 (by decide) (by decide) rfl plain (by decide) (by decide)
    (by decide)

end Template
end Infra
