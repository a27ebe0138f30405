import Infra.Proofs.Json.Written
import Infra.Proofs.Template.Agreement
import Infra.Proofs.Template.Gating

/-!
# Stacks and the dependency graph

A stack is rendered from what its child project is given as parameters, and the dependency graph is
read off the properties. The two need not agree, and a stack lists no explicit dependency.

* `Template.GivenShows` : the names that the parameters of a stack refer to;
  `Template.mem_references_given` : they refer to exactly these;
* `Template.exists_referenceGraph` : the graph that is read off a rendered document;
* `Template.mem_referenceGraph_stack_iff` : its edges from a stack, and those of the dependency
  graph.
-/

namespace Infra.Template

open Store

variable {s : Store} {plan : Plan} {n : Namespace}

/-! ## The parameters of a stack -/

/-- The parameters of a stack refer to a name: a value that is given and kept shows it, or it is
that of the base of the templates and nothing else is given in its place. -/
def GivenShows (s : Store) (names : List String) (given : List (Value × Value)) (t : String) :
    Prop :=
  (∃ entry ∈ respelled id given, Shows s names entry.2 t) ∨
    t = basePath ∧ ∀ v, (.text basePath, v) ∉ given

theorem IsPlainText.kept {key : Value} (plain : IsPlainText key) :
    ∃ k, key = .text k ∧ IsPlainKey (.text (id k)) := by
  obtain ⟨k, eq, ref, att⟩ := plain
  refine ⟨k, eq, fun same => ref ?_, fun same => att ?_⟩
  · cases same
    decide +kernel
  · cases same
    decide +kernel

theorem references_baseReference {t : String} : t ∈ references baseReference.2 ↔ t = basePath := by
  have unmarked : basePath.startsWith pseudoMark = false := by decide +kernel
  show t ∈ references (.record [("Ref", .text basePath)]) ↔ _
  rw [mem_references_ref]
  exact and_iff_left unmarked

/-- The parameters of a stack refer to what is shown by what the child project is given. -/
theorem mem_references_given (cross : plan.cross = markOutput) {given : List (Value × Value)}
    {rendered : List (Value × Datum)} (plain : PlainEntries s given)
    (h : renderEntries .ok (form s plan true) given = .ok rendered) {t : String} :
    t ∈ references (.table (Entries.ofList (baseReference :: rendered))) ↔
      GivenShows s plan.names given t := by
  have texts : ∀ entry ∈ given, ∃ k, entry.1 = .text k ∧ IsPlainKey (.text (id k)) :=
    fun entry mem => (plain entry mem).1.kept
  have spells : ∀ k, (Except.ok (.text k) : Except Fault Value) = .ok (.text (id k)) := fun _ => rfl
  have shown := mem_references_ofList spells texts h (P := (Shows s plan.names · t))
    fun entry mem d value => by
      rw [form, cross] at value
      exact mem_references_renderTo (plain entry mem).2 value
  obtain ⟨named, rfl, alike⟩ := alike_renderEntries spells
    (fun entry mem => (texts entry mem).imp fun _ h => h.1) h
  have keys := plainKey_of_alike texts alike
  have base : IsPlainKey (.text basePath) := ⟨by decide, by decide⟩
  have absent : basePath ∉ named.map (·.1) ↔ ∀ v, (Value.text basePath, v) ∉ given := by
    rw [← Named.names_of_alike alike, mem_names_spelled_id, not_exists]
  show t ∈ references (.table (Entries.ofList
    (Entries.ofNamed ((basePath, baseReference.2) :: named)))) ↔ _
  rw [mem_references_settings (List.forall_mem_cons.mpr ⟨base, keys⟩), GivenShows, ← shown,
    mem_references_settings keys, ← absent]
  constructor
  · rintro ⟨⟨name, d⟩, mem, found⟩
    rcases Named.mem_ofList_cons.mp mem with later | ⟨-, rfl, new⟩
    · exact .inl ⟨_, later, found⟩
    · exact .inr ⟨references_baseReference.mp found, new⟩
  · rintro (⟨setting, later, found⟩ | ⟨rfl, new⟩)
    · exact ⟨setting, Named.mem_ofList_cons.mpr (.inl later), found⟩
    · exact ⟨_, Named.mem_ofList_cons.mpr (.inr ⟨rfl, rfl, new⟩), references_baseReference.mpr rfl⟩

/-! ## Names after a resolution -/

/-- After a resolution a shown name is that of an entity that the value leads to: of one in the
template by a reference to an attribute of it, or of a resource that is a value. -/
theorem Shows.exists_entity (known : s.NamedBy n) (once : (n.entities.map (·.2)).Nodup)
    {names : List String} {v : Value} {t : String} (h : Shows s names v t) :
    ∃ e, (t, .entity e) ∈ n ∧
      ((∃ ref, s.Within v (.reference ref) ∧ (s.reference ref).parent = handle e ∧ t ∈ names) ∨
        s.Within v (.entity e) ∧ (s.entity e).kind = .resource) := by
  rcases h.exists_named with ⟨ref, within, named, inside⟩ | ⟨e, within, kind, named⟩
  · obtain ⟨⟨_, e⟩, found, rfl⟩ := Option.map_eq_some_iff.mp (known.reference ref t named)
    obtain ⟨mem, parent⟩ := (Arena.entry?_eq_some_iff once).mp found
    exact ⟨e, Namespace.mem_entities.mp mem, .inl ⟨ref, within, parent.symm, inside⟩⟩
  · exact ⟨e, known.entity e t named, .inr ⟨within, kind⟩⟩

/-- What the collection of fresh entities and their resolution leave: each name and each entity
stands once in the namespace, which gives all names. -/
theorem namedBy_of_collect {s₀ s₁ s : Store} {units : List LoadedUnit} {n : Namespace}
    {arena : Arena} (fresh : ∀ id, (s₀.entity id).name = none)
    (unnamed : ∀ ref, (s₀.reference ref).name = none)
    (collected : (s₀.collect units).result = (s₁, .ok n))
    (resolved : (s₁.resolve n).result = (s, .ok arena)) :
    (n.map (·.1)).Nodup ∧ (n.entities.map (·.2)).Nodup ∧ s.NamedBy n := by
  obtain ⟨once, values⟩ := collect_spec collected
  have same : SameButProps s₀ s₁ := by
    have all := sameButProps_collect s₀ units
    rwa [collected] at all
  have references : ∀ ref, s₁.reference ref = s₀.reference ref := fun ref => by
    unfold reference
    rw [same.references]
  exact ⟨once, Namespace.entities_nodup values, namedBy_of_resolve
    (fun id => (same.name id).trans (fresh id)) (fun ref => references ref ▸ unnamed ref) resolved⟩

/-! ## The graph of a document -/

/-- The graph read off a rendered document leads from an entry to another where the form of the
first refers to the second. -/
theorem exists_referenceGraph {r : Rendering} (names : (n.map (·.1)).Nodup)
    (serialized : (serialize s plan n []).result = .ok r)
    (inverse : ∀ draft, drafted s plan n = .ok draft →
      Json.read r.primary = .ok (assembled draft [])) :
    ∃ template g, parse? r.primary = .ok (some template) ∧ referenceGraph template = .ok g ∧
      ∀ here ∈ n, ∀ there ∈ n, stands s here → stands s there → there.1 ≠ here.1 →
        ∃ d, Drawn s plan n here d ∧
          ∀ targets, RefersTo d targets → (there.1 ∈ g.listed here.1 ↔ there.1 ∈ targets) := by
  obtain ⟨draft, drawn⟩ := drafted_of_serialize serialized
  have belong := drafted_resources names drawn
  have keys : (draft.resources.map fun r => keyName r.1).Nodup := by
    rw [keyName_of_belongs belong]
    exact (List.filter_sublist.map _).nodup names
  obtain ⟨template, tree⟩ : ∃ template, assembled draft [] = .table template := ⟨_, rfl⟩
  have formed : ∀ r ∈ draft.resources, ∃ targets, RefersTo r.2 targets := by
    intro r mem
    obtain ⟨entry, -, -, form⟩ := exists_left_of_mem belong mem
    exact form.refersTo
  choose! targets formed using formed
  refine ⟨template, _, ?_, referenceGraph_eq (resources_assembled tree) formed, ?_⟩
  · rw [parse?, inverse draft drawn, tree]
  intro here mem there mem_there standing standing_there other
  obtain ⟨u, inside, key, form⟩ :=
    exists_right_of_mem belong (List.mem_filter.mpr ⟨mem, standing⟩)
  obtain ⟨v, inside_there, key_there, -⟩ :=
    exists_right_of_mem belong (List.mem_filter.mpr ⟨mem_there, standing_there⟩)
  have label : keyName u.1 = here.1 := by rw [key, keyName]
  have label_there : keyName v.1 = there.1 := by rw [key_there, keyName]
  refine ⟨u.2, form, fun others refers => ?_⟩
  rw [← label, mem_listed_graphOf keys inside, (formed u inside).unique refers, label]
  exact and_iff_left ⟨⟨v, inside_there, label_there⟩, other⟩

/-! ## Edges of a stack -/

/-- A stack refers to what its child project is given as parameters, and the dependency graph lists
what the properties of the child project reach. Neither knows what the other reads: the stack has an
edge to another resource exactly when the parameters show it, and the graph has one exactly when the
properties depend on it. -/
theorem mem_referenceGraph_stack_iff {s₀ s₁ s : Store} {units : List LoadedUnit}
    {n part : Namespace} {arena : Arena} {r : Rendering}
    (fresh : ∀ id, (s₀.entity id).name = none) (unnamed : ∀ ref, (s₀.reference ref).name = none)
    (collected : (s₀.collect units).result = (s₁, .ok n))
    (resolved : (s₁.resolve n).result = (s, .ok arena)) (names : (part.map (·.1)).Nodup)
    (sub : ∀ entry ∈ part, entry ∈ n)
    (serialized : (serialize s (planOf s n part) part []).result = .ok r)
    (inverse : ∀ draft, drafted s (planOf s n part) part = .ok draft →
      Json.read r.primary = .ok (assembled draft [])) :
    ∃ template g, parse? r.primary = .ok (some template) ∧ referenceGraph template = .ok g ∧
      ∀ name id c t e, (name, .entity id) ∈ part → stands s (name, .entity id) →
        (s.entity id).child = some c → (t, .entity e) ∈ part → stands s (t, .entity e) → t ≠ name →
        (t ∈ (s.dependencyGraph n none).result.listed name ↔ s.DependsOn n id t) ∧
        ∃ given, childParameters s c = .ok given ∧ (PlainEntries s given →
          (t ∈ g.listed name ↔ GivenShows s (part.map (·.1)) given t) ∧
          (t ∈ g.listed name → t ≠ basePath → ∃ entry ∈ given,
            (∃ ref, s.Within entry.2 (.reference ref) ∧ (s.reference ref).parent = handle e) ∨
              s.Within entry.2 (.entity e))) := by
  obtain ⟨once, entities, known⟩ := namedBy_of_collect fresh unnamed collected resolved
  obtain ⟨template, g, parsed, graph, edges⟩ := exists_referenceGraph names serialized inverse
  refine ⟨template, g, parsed, graph, ?_⟩
  intro name id c t e here standing child there standing_t other
  constructor
  · rw [listed_dependencyGraph once none (sub _ here)]
    exact mem_dependencies_ofNamespace entities
  obtain ⟨d, drawn, edge⟩ := edges _ here _ there standing standing_t other
  cases drawn with
  | plain single _ => cases single.symm.trans child
  | stack found form =>
    cases found.symm.trans child
    obtain ⟨given, rendered, _, parameters, formed, -, same, refers⟩ := refersTo_stackForm form
    refine ⟨given, parameters, fun plain => ?_⟩
    have shown : t ∈ g.listed name ↔ GivenShows s (part.map (·.1)) given t :=
      (edge _ refers).trans (same ▸ mem_references_given rfl plain formed)
    refine ⟨shown, fun mem unlike => ?_⟩
    obtain ⟨entry, inside, shows⟩ := (shown.mp mem).resolve_right fun base => unlike base.1
    obtain ⟨k, -, mem⟩ := mem_of_mem_respelled inside
    obtain ⟨f, found, leads⟩ := shows.exists_entity known entities
    cases List.inj_on_of_nodup_map once found (sub _ there) rfl
    exact ⟨_, mem, leads.imp (fun ⟨ref, within, parent, _⟩ => ⟨ref, within, parent⟩) (·.1)⟩

/-- The document of a bucket and of a child project that is given an attribute of it. -/
def stackDocument : String :=
"\x7b
  \"FormatVersion\": \"tessera-template/1\",
  \"Parameters\": \x7b
    \"TemplateBasePath\": \x7b
      \"Type\": \"String\",
      \"Default\": \".\",
      \"Description\": \"Base path of nested stack templates\"
    \x7d
  \x7d,
  \"Resources\": \x7b
    \"bucket\": \x7b
      \"Type\": \"Bucket\"
    \x7d,
    \"network\": \x7b
      \"Type\": \"Template::Stack\",
      \"Properties\": \x7b
        \"TemplateURL\": \x7b
          \"Fn::Sub\": \"$\x7bTemplateBasePath\x7d/network.template.json\"
        \x7d,
        \"Parameters\": \x7b
          \"TemplateBasePath\": \x7b
            \"Ref\": \"TemplateBasePath\"
          \x7d,
          \"source\": \x7b
            \"Fn::GetAtt\": [
              \"bucket\",
              \"Arn\"
            ]
          \x7d
        \x7d
      \x7d
    \x7d
  \x7d
\x7d"

/-- The sections of that document. -/
def stackDraft : Draft where
  parameters := [(.text basePath, .record [("Type", .text "String"), ("Default", .text "."),
    ("Description", .text "Base path of nested stack templates")])]
  resources := [(.text "bucket", .record [("Type", .text "Bucket")]),
    (.text "network", .record [("Type", .text "Template::Stack"),
      ("Properties", .record [
        ("TemplateURL",
          .record [("Fn::Sub", .text "$\x7bTemplateBasePath\x7d/network.template.json")]),
        ("Parameters", .record [(basePath, .record [("Ref", .text basePath)]),
          ("source", .record [("Fn::GetAtt", .texts ["bucket", "Arn"])])])])])]

set_option maxRecDepth 8000 in
theorem read_stackDocument : Json.read stackDocument = .ok (assembled stackDraft []) := by
  -- The characters of the literal, without decoding the bytes of the text.
  have chars : stackDocument.toList = _ := String.toList_ofList
  rw [Json.read, Json.readWithin, chars]
  cbv

/-- The bucket and the child project, in order. -/
def stackNamespace : Namespace := [("bucket", .entity 0), ("network", .entity 2)]

/-- The store when they are resolved. -/
def stackResolved : Store := (stackStore.assignNames stackNamespace).nameReference 0 "bucket"

theorem fresh_stackStore : (∀ id, (stackStore.entity id).name = none) ∧
    ∀ ref, (stackStore.reference ref).name = none := by
  refine ⟨fun id => ?_, fun ref => ?_⟩
  · match id with
    | 0 | 1 | 2 => rfl
    | _ + 3 => rfl
  · match ref with
    | 0 => rfl
    | _ + 1 => rfl

theorem resolve_stackNamespace : (stackStore.resolve stackNamespace).result =
    (stackResolved, .ok (Arena.ofNamespace stackNamespace)) := by
  cbv

theorem drafted_stackNamespace :
    drafted stackResolved (planOf stackResolved stackNamespace stackNamespace) stackNamespace =
      .ok stackDraft := by
  cbv

set_option maxRecDepth 8000 in
theorem document_stackDraft : Json.document (assembled stackDraft []) = .ok stackDocument := by
  have chars : stackDocument.toList = _ := String.toList_ofList
  rw [Json.document_eq_ok_iff, chars]
  cbv

theorem serialize_stackNamespace :
    (serialize stackResolved (planOf stackResolved stackNamespace stackNamespace) stackNamespace
      []).result = .ok ⟨stackDocument, []⟩ := by
  have files : (childFiles stackResolved stackNamespace).result = [] := by cbv
  exact serialize_eq_ok_iff.mpr ⟨_, _, drafted_stackNamespace, rfl, document_stackDraft, files.symm⟩

theorem childParameters_network :
    childParameters stackResolved ⟨"network", 3, [], none⟩ =
      .ok [(.text "source", .reference 0)] := by
  cbv

theorem plainEntries_network : PlainEntries stackResolved [(.text "source", .reference 0)] := by
  intro entry mem
  obtain rfl := List.mem_singleton.mp mem
  exact ⟨⟨"source", rfl, by decide +kernel, by decide +kernel⟩, .of_leaf rfl nofun⟩

theorem dependencies_network :
    (stackResolved.dependencyGraph stackNamespace none).result.listed "network" = [] := by
  cbv

theorem inverse_stackDocument (draft : Draft)
    (h : drafted stackResolved (planOf stackResolved stackNamespace stackNamespace)
      stackNamespace = .ok draft) : Json.read stackDocument = .ok (assembled draft []) := by
  cases h.symm.trans drafted_stackNamespace
  exact read_stackDocument

/-- The stack of the child project refers to the bucket as its parameters do. -/
theorem mem_referenceGraph_stack_iff_network :
    (∀ id, (stackStore.entity id).name = none) ∧ (∀ ref, (stackStore.reference ref).name = none) ∧
      (stackStore.collect [⟨"unit", stackNamespace⟩]).result = (stackStore, .ok stackNamespace) ∧
      (stackStore.resolve stackNamespace).result =
        (stackResolved, .ok (Arena.ofNamespace stackNamespace)) ∧
      (stackNamespace.map (·.1)).Nodup ∧
      (serialize stackResolved (planOf stackResolved stackNamespace stackNamespace) stackNamespace
        []).result = .ok ⟨stackDocument, []⟩ ∧
      (∀ draft, drafted stackResolved (planOf stackResolved stackNamespace stackNamespace)
        stackNamespace = .ok draft → Json.read stackDocument = .ok (assembled draft [])) ∧
      ∃ template g, parse? stackDocument = .ok (some template) ∧
        referenceGraph template = .ok g ∧
          ("bucket" ∈ g.listed "network" ↔
            GivenShows stackResolved ["bucket", "network"] [(.text "source", .reference 0)]
              "bucket") := by
  obtain ⟨fresh, unnamed⟩ := fresh_stackStore
  have collected : (stackStore.collect [⟨"unit", stackNamespace⟩]).result =
      (stackStore, .ok stackNamespace) := rfl
  have names : (stackNamespace.map (·.1)).Nodup := by decide
  refine ⟨fresh, unnamed, collected, resolve_stackNamespace, names, serialize_stackNamespace,
    inverse_stackDocument, ?_⟩
  obtain ⟨template, g, parsed, graph, edges⟩ :=
    mem_referenceGraph_stack_iff fresh unnamed collected resolve_stackNamespace names
      (fun _ mem => mem) serialize_stackNamespace inverse_stackDocument
  obtain ⟨-, given, parameters, shown⟩ := edges "network" 2 _ "bucket" 0 (by decide) (by decide) rfl
    (by decide) (by decide) (by decide)
  cases parameters.symm.trans childParameters_network
  exact ⟨template, g, parsed, graph, (shown plainEntries_network).1⟩

/-- The stack refers to the bucket, which the dependency graph does not know. -/
theorem stack_parameter_not_dependency :
    (∀ id, (stackStore.entity id).name = none) ∧
      (stackStore.collect [⟨"unit", stackNamespace⟩]).result = (stackStore, .ok stackNamespace) ∧
      (stackStore.resolve stackNamespace).result =
        (stackResolved, .ok (Arena.ofNamespace stackNamespace)) ∧
      (serialize stackResolved (planOf stackResolved stackNamespace stackNamespace) stackNamespace
        []).result = .ok ⟨stackDocument, []⟩ ∧
      ∃ template g, parse? stackDocument = .ok (some template) ∧
        referenceGraph template = .ok g ∧ "bucket" ∈ g.listed "network" ∧
        "bucket" ∉ (stackResolved.dependencyGraph stackNamespace none).result.listed "network" := by
  obtain ⟨template, g, parsed, graph, edges⟩ := exists_referenceGraph (by decide)
    serialize_stackNamespace inverse_stackDocument
  obtain ⟨d, drawn, edge⟩ := edges ("network", .entity 2) (by decide) ("bucket", .entity 0)
    (by decide) (by decide) (by decide) (by decide)
  refine ⟨fresh_stackStore.1, rfl, resolve_stackNamespace, serialize_stackNamespace, template, g,
    parsed, graph, ?_, ?_⟩
  · cases drawn with
    | plain single _ => cases single
    | stack child form =>
      cases child
      obtain ⟨given, rendered, _, parameters, formed, -, same, refers⟩ := refersTo_stackForm form
      cases parameters.symm.trans childParameters_network
      rw [edge _ refers, same, mem_references_given rfl plainEntries_network formed]
      exact .inl ⟨("source", .reference 0), by decide, .reference (by decide) (by decide)⟩
  · rw [dependencies_network]
    exact List.not_mem_nil

end Infra.Template
