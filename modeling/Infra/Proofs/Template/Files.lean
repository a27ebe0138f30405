import Infra.Proofs.Named
import Infra.Proofs.Template.Draft

/-!
# The files of nested templates

The files of a template are those of its child projects and of theirs, at any depth, under one name
each. Names are told apart within one project only, so that documents of different projects can meet
under one file name.

* `Template.Carries` : child projects that this serializer has built, at every depth, and their
  documents;
* `Template.files_of_carries` : of the documents of one file name the last is shipped;
* `Template.files_spec` : each is shipped exactly when those of one file name agree.
-/

namespace Infra.Template

open Store

variable {s : Store} {plan : Plan} {n : Namespace}

/-- Child projects were built by this serializer, and so were the child projects in them. Their
documents under their file names: that of a child project, those of the child projects in it, and
those of the next child projects. -/
inductive Carries : List (String × Child) → List (String × String) → Prop
  | nil : Carries [] []
  | cons {name : String} {c : Child} {rest : List (String × Child)} {s : Store} {plan : Plan}
    {n : Namespace} {outputs : List Value} {inner : Rendering}
    {below others : List (String × String)} :
    (c.built.getD []).lookup backend = some (.full inner) →
    (serialize s plan n outputs).result = .ok inner → Carries (children s n) below →
    Carries rest others →
    Carries ((name, c) :: rest) ((childFile name, inner.primary) :: below ++ others)

/-! ## Files of child projects -/

/-- The step by which `childFiles` adds the files of one child project. -/
def addChild (files : List (String × String)) (child : String × Child) :
    Logged (List (String × String)) :=
  match filesOfChild child.1 child.2 with
  | some added => pure (Named.setAll files added)
  | none => do
    Logged.tell ⟨.warning, logger, "child_template_missing", [("child", .text child.1)]⟩
    pure files

theorem childFiles_eq (s : Store) (n : Namespace) :
    childFiles s n = (children s n).foldlM addChild [] := rfl

theorem result_addChild {name : String} {c : Child} {inner : Rendering}
    (held : (c.built.getD []).lookup backend = some (.full inner))
    (files : List (String × String)) :
    (addChild files (name, c)).result =
      Named.setAll files ((childFile name, inner.primary) :: inner.files) := by
  have added : filesOfChild name c = some ((childFile name, inner.primary) :: inner.files) := by
    rw [filesOfChild, held]
  simp only [addChild, added, Logged.result_pure]

theorem result_addChildren {cs : List (String × Child)} {docs : List (String × String)}
    (built : Carries cs docs) {files : List (String × String)} (nodup : (files.map (·.1)).Nodup) :
    (cs.foldlM addChild files).result = Named.setAll files docs := by
  induction built generalizing files with
  | nil => rfl
  | @cons name c rest s plan n outputs inner below others held serialized _ _ ihBelow ihOthers =>
    obtain ⟨_, _, -, -, -, own⟩ := serialize_eq_ok_iff.mp serialized
    have flat : inner.files = Named.ofList below := own.trans (ihBelow .nil)
    -- The files of the child project are set after its document, and can be set as its documents.
    have here : Named.setAll files ((childFile name, inner.primary) :: inner.files) =
        Named.setAll files ((childFile name, inner.primary) :: below) := by
      rw [flat]
      exact Named.setAll_ofList (Named.nodup_insert nodup _ _) below
    rw [List.foldlM_cons, Logged.result_bind, result_addChild held, here,
      ihOthers (Named.nodup_setAll nodup _), ← Named.setAll_append]

/-- The files of a template are the documents of its child projects, as far as later ones do not
replace them. -/
theorem files_of_carries {outputs : List Value} {r : Rendering} {docs : List (String × String)}
    (serialized : (serialize s plan n outputs).result = .ok r)
    (built : Carries (children s n) docs) : r.files = Named.ofList docs := by
  obtain ⟨_, _, -, -, -, own⟩ := serialize_eq_ok_iff.mp serialized
  have none : (([] : List (String × String)).map (·.1)).Nodup := .nil
  rw [own, childFiles_eq, result_addChildren built none, Named.ofList_eq]

/-- The documents of child projects are those of each and its files. -/
theorem Carries.mem {cs : List (String × Child)} {docs : List (String × String)}
    (built : Carries cs docs) {name : String} {c : Child} (mem : (name, c) ∈ cs) :
    ∃ inner, (c.built.getD []).lookup backend = some (.full inner) ∧
      (childFile name, inner.primary) ∈ docs ∧ ∀ file ∈ inner.files, file ∈ docs := by
  induction built with
  | nil => cases mem
  | @cons first c rest s plan n outputs inner below others held serialized own _ _ ih =>
    rcases List.mem_cons.mp mem with eq | later
    · cases eq
      refine ⟨inner, held, List.mem_cons_self, fun file inside => ?_⟩
      rw [files_of_carries serialized own] at inside
      exact List.mem_append_left _ (List.mem_cons_of_mem _ (Named.mem_of_mem_ofList inside))
    · obtain ⟨inner, held, own, files⟩ := ih later
      exact ⟨inner, held, List.mem_append_right _ own,
        fun file inside => List.mem_append_right _ (files file inside)⟩

/-! ## Addresses of stacks -/

/-- The address of a stack's template: its file under the base of the templates. -/
def templateAddress (name : String) : Datum :=
  .record [("Fn::Sub", .text ("$\x7b" ++ basePath ++ "\x7d/" ++ childFile name))]

theorem address_of_stackForm {name : String} {e : Entity} {c : Child} {d : Datum}
    (h : stackForm s plan name e c = .ok d) :
    ∃ properties, entry d "Properties" = .ok properties ∧
      entry properties "TemplateURL" = .ok (templateAddress name) := by
  obtain ⟨given, -, later⟩ := bind_eq_ok_iff.mp h
  obtain ⟨rendered, -, eq⟩ := bind_eq_ok_iff.mp later
  cases eq
  exact ⟨_, rfl, rfl⟩

/-- Child projects of any depth that this serializer has built ship one document under each of their
file names: the last one, in the order in which a child project stands before those in it and these
before the next. So all documents are shipped exactly when those of one file name agree, the
document of each child project and each of its files among them. A stack has the address of the file
name of its child project. -/
theorem files_spec {outputs : List Value} {r : Rendering} {docs : List (String × String)}
    (names : (n.map (·.1)).Nodup) (serialized : (serialize s plan n outputs).result = .ok r)
    (built : Carries (children s n) docs) :
    (∀ file text, (file, text) ∈ r.files ↔ ∃ before after,
      docs = before ++ (file, text) :: after ∧ file ∉ after.map (·.1)) ∧
    ((∀ doc ∈ docs, doc ∈ r.files) ↔
      ∀ file text other, (file, text) ∈ docs → (file, other) ∈ docs → text = other) ∧
    (∀ name c, (name, c) ∈ children s n →
      ∃ inner, (c.built.getD []).lookup backend = some (.full inner) ∧
        (childFile name, inner.primary) ∈ docs ∧ ∀ file ∈ inner.files, file ∈ docs) ∧
    ∀ name id c, (name, .entity id) ∈ n → stands s (name, .entity id) →
      (s.entity id).child = some c →
      ∃ draft d properties, drafted s plan n = .ok draft ∧ (.text name, d) ∈ draft.resources ∧
        entry d "Properties" = .ok properties ∧
        entry properties "TemplateURL" = .ok (templateAddress name) := by
  have files := files_of_carries serialized built
  refine ⟨fun file text => ?_, ?_, fun name c mem => built.mem mem, ?_⟩
  · rw [files]
    exact Named.mem_ofList_iff_last
  · rw [files]
    exact Named.forall_mem_ofList_iff
  · intro name id c mem standing child
    obtain ⟨draft, _, drawn, -⟩ := serialize_eq_ok_iff.mp serialized
    obtain ⟨⟨key, d⟩, inside, eq, form⟩ := exists_right_of_mem (drafted_resources names drawn)
      (List.mem_filter.mpr ⟨mem, standing⟩)
    cases eq
    cases form with
    | plain single _ => cases single.symm.trans child
    | stack found form =>
      obtain ⟨properties, own, address⟩ := address_of_stackForm form
      exact ⟨draft, d, properties, drawn, inside, own, address⟩

/-- A store of two child projects that are built. -/
def twinStore (first second : Rendering) : Store :=
  let s := (initial.newMapping []).2
  let s := (s.newEntity .resource "ChildProject" backend "Template::Stack" [] []
    (some ⟨"a", 0, [], some [(backend, .full first)]⟩)).2
  (s.newEntity .resource "ChildProject" backend "Template::Stack" [] []
    (some ⟨"b", 0, [], some [(backend, .full second)]⟩)).2

def twinNamespace : Namespace := [("a", .entity 0), ("b", .entity 1)]

def twinPlan : Plan := ⟨["a", "b"], markOutput, []⟩

/-- The template of a project without entities. -/
def emptyDocument : String :=
"\x7b
  \"FormatVersion\": \"tessera-template/1\",
  \"Resources\": \x7b\x7d
\x7d"

/-- The template of a project with a bucket. -/
def bucketDocument : String :=
"\x7b
  \"FormatVersion\": \"tessera-template/1\",
  \"Resources\": \x7b
    \"bucket\": \x7b
      \"Type\": \"Bucket\"
    \x7d
  \x7d
\x7d"

theorem serialize_empty : (serialize initial ⟨[], markOutput, []⟩ [] []).result =
    .ok ⟨emptyDocument, []⟩ := by
  rfl

theorem serialize_bucket : (serialize queueStore ⟨["bucket"], markOutput, []⟩
    [("bucket", .entity 0)] []).result = .ok ⟨bucketDocument, []⟩ := by
  with_unfolding_all rfl

/-- The form of a child project without parameters. -/
def bareStack (name : String) : Datum :=
  .record [("Type", .text "Template::Stack"), ("Properties", .record [
    ("TemplateURL", templateAddress name), ("Parameters", .table [baseReference])])]

theorem exists_serialize_twins (first second : Rendering) : ∃ r,
    (serialize (twinStore first second) twinPlan twinNamespace []).result = .ok r := by
  have drawn : drafted (twinStore first second) twinPlan twinNamespace =
      .ok ⟨baseParameter (twinStore first second) twinNamespace,
        [(.text "a", bareStack "a"), (.text "b", bareStack "b")]⟩ := rfl
  obtain ⟨primary, written⟩ : ∃ primary, Json.document (assembled
      ⟨baseParameter (twinStore first second) twinNamespace,
        [(.text "a", bareStack "a"), (.text "b", bareStack "b")]⟩ []) = .ok primary := ⟨_, rfl⟩
  exact ⟨⟨primary, _⟩, serialize_eq_ok_iff.mpr ⟨_, _, drawn, rfl, written, rfl⟩⟩

/-- The documents of two child projects: of the first, whose own child projects hold a bucket each,
and of the second, which is empty. -/
def twinDocuments (inner : Rendering) : List (String × String) :=
  [(childFile "a", inner.primary), (childFile "a", bucketDocument), (childFile "b", bucketDocument),
    (childFile "b", emptyDocument)]

theorem carries_buckets :
    Carries (children (twinStore ⟨bucketDocument, []⟩ ⟨bucketDocument, []⟩) twinNamespace)
      [(childFile "a", bucketDocument), (childFile "b", bucketDocument)] :=
  .cons rfl serialize_bucket .nil (.cons rfl serialize_bucket .nil .nil)

theorem carries_twins {inner : Rendering}
    (serialized : (serialize (twinStore ⟨bucketDocument, []⟩ ⟨bucketDocument, []⟩) twinPlan
      twinNamespace []).result = .ok inner) :
    Carries (children (twinStore inner ⟨emptyDocument, []⟩) twinNamespace) (twinDocuments inner) :=
  .cons rfl serialized carries_buckets (.cons rfl serialize_empty .nil .nil)

/-- Of two documents of one file name the last is shipped. -/
theorem files_spec_twins : ∃ inner r,
    (twinNamespace.map (·.1)).Nodup ∧
      (serialize (twinStore inner ⟨emptyDocument, []⟩) twinPlan twinNamespace []).result = .ok r ∧
      Carries (children (twinStore inner ⟨emptyDocument, []⟩) twinNamespace) (twinDocuments inner) ∧
      (childFile "b", emptyDocument) ∈ r.files := by
  have names : (twinNamespace.map (·.1)).Nodup := by decide
  obtain ⟨inner, built⟩ := exists_serialize_twins ⟨bucketDocument, []⟩ ⟨bucketDocument, []⟩
  obtain ⟨r, serialized⟩ := exists_serialize_twins inner ⟨emptyDocument, []⟩
  refine ⟨inner, r, names, serialized, carries_twins built, ?_⟩
  exact ((files_spec names serialized (carries_twins built)).1 _ _).mpr
    ⟨(twinDocuments inner).take 3, [], rfl, by simp⟩

/-- The document of the project `b` replaces that of the project `b` in the project `a`. -/
theorem nested_document_replaced : ∃ inner r,
    (serialize (twinStore ⟨bucketDocument, []⟩ ⟨bucketDocument, []⟩) twinPlan twinNamespace
      []).result = .ok inner ∧
      (serialize (twinStore inner ⟨emptyDocument, []⟩) twinPlan twinNamespace []).result = .ok r ∧
      (childFile "b", bucketDocument) ∈ inner.files ∧
      (childFile "b", bucketDocument) ∉ r.files := by
  obtain ⟨inner, built⟩ := exists_serialize_twins ⟨bucketDocument, []⟩ ⟨bucketDocument, []⟩
  obtain ⟨r, serialized⟩ := exists_serialize_twins inner ⟨emptyDocument, []⟩
  refine ⟨inner, r, built, serialized, ?_, ?_⟩
  · rw [files_of_carries built carries_buckets]
    decide
  · rw [files_of_carries serialized (carries_twins built)]
    have left : Named.ofList (twinDocuments inner) =
        [(childFile "a", bucketDocument), (childFile "b", emptyDocument)] := rfl
    rw [left]
    decide

end Infra.Template
