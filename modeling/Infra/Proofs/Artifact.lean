import Infra.Artifact
import Infra.Proofs.FileTree
import Infra.Proofs.Json.Written
import Infra.Proofs.Template.Files

/-!
# Artifacts on disk

The documents of each backend are told apart by name, and the backends by their directories. Only
the primary document of a backend has no name of its own among them: it is written under a file name
that another document of the backend can have.

* `Artifact.allDocuments` : all documents in the order of writing, the manifest last;
* `Artifact.PlainNames` : backends and documents are called by single names;
* `Artifact.fileAt?_of_last` : then the last document under some names is on disk;
* `Artifact.write_keeps_documents` : every document that has a name of its own is on disk.
-/

namespace Infra.Artifact

variable {t u : FileTree String} {serializers : Serializers} {outputs : Outputs} {manifest : Datum}
  {directory : Path} {written : List Path} {text : String}

/-- All documents in the order of writing, the manifest last. -/
def allDocuments (serializers : Serializers) (directory : Path) (outputs : Outputs)
    (manifest : String) : List (Path × String) :=
  (outputs.flatMap fun output => documents serializers directory output.1 output.2) ++
    [(directory.child manifestFile, manifest)]

/-! ## Order of writing -/

theorem writes_of_writeBackend {output : String × Rendered}
    (h : writeBackend serializers directory t output = .ok u) :
    FileTree.Writes t (documents serializers directory output.1 output.2) u := by
  obtain ⟨middle, made, wrote⟩ := bind_eq_ok_iff.mp h
  exact .make made (FileTree.writes_of_foldlM wrote)

theorem writes_of_writeBackends
    (h : outputs.foldlM (writeBackend serializers directory) t = .ok u) :
    FileTree.Writes t
      (outputs.flatMap fun output => documents serializers directory output.1 output.2) u := by
  induction outputs generalizing t with
  | nil =>
    cases h
    exact .done
  | cons output rest ih =>
    rw [List.foldlM_cons] at h
    obtain ⟨middle, first, later⟩ := bind_eq_ok_iff.mp h
    exact (writes_of_writeBackend first).append (ih later)

/-- All documents are written one after the other, and their paths are listed. -/
theorem writes_of_write
    (h : write t outputs serializers manifest directory = .ok (u, written)) :
    ∃ text, Json.document manifest = .ok text ∧
      FileTree.Writes t (allDocuments serializers directory outputs text) u ∧
      written = (allDocuments serializers directory outputs text).map (·.1) := by
  obtain ⟨filled, backends, h⟩ := bind_eq_ok_iff.mp h
  obtain ⟨made, root, h⟩ := bind_eq_ok_iff.mp h
  obtain ⟨text, document, h⟩ := bind_eq_ok_iff.mp h
  obtain ⟨last, wrote, h⟩ := bind_eq_ok_iff.mp h
  cases h
  refine ⟨text, document,
    (writes_of_writeBackends backends).append (.make root (.write wrote .done)), ?_⟩
  rw [allDocuments, List.map_append, List.map_flatMap]
  rfl

/-! ## Plain names -/

/-- Backends and documents are called by single names, the backends by different ones and so the
named documents of each backend. -/
structure PlainNames (serializers : Serializers) (outputs : Outputs) : Prop where
  backends : (outputs.map (·.1)).Nodup
  directories : ∀ output ∈ outputs, Path.IsName output.1
  primaries : ∀ output ∈ outputs, Path.IsName (primaryFile serializers output.1)
  files : ∀ output ∈ outputs, (output.2.normalize.files.map (·.1)).Nodup
  fileNames : ∀ output ∈ outputs, ∀ file ∈ output.2.normalize.files, Path.IsName file.1

/-- The path of names below a directory. -/
def below (directory : Path) (names : List String) : Path :=
  { directory with names := directory.names ++ names }

theorem below_injective (directory : Path) : Function.Injective (below directory) := by
  intro names others same
  simpa [below] using same

/-- The names below the output directory under which the documents of a backend are written. -/
def targets (serializers : Serializers) (output : String × Rendered) :
    List (List String × String) :=
  ([output.1, primaryFile serializers output.1], output.2.primary) ::
    output.2.normalize.files.map fun file => ([output.1, file.1], file.2)

/-- The names below the output directory under which all documents are written. -/
def allTargets (serializers : Serializers) (outputs : Outputs) (manifest : String) :
    List (List String × String) :=
  outputs.flatMap (targets serializers) ++ [([manifestFile], manifest)]

theorem primary_normalize (rendered : Rendered) :
    rendered.normalize.primary = rendered.primary := by
  cases rendered <;> rfl

theorem documents_normalize {rendered : Rendered}
    (files : (rendered.normalize.files.map (·.1)).Nodup)
    (named : ∀ file ∈ rendered.normalize.files, Path.IsName file.1) :
    rendered.normalize.documents = ("", rendered.primary) :: rendered.normalize.files := by
  have new : "" ∉ rendered.normalize.files.map (·.1) := fun known => by
    obtain ⟨file, mem, empty⟩ := List.mem_map.mp known
    exact (named file mem).not_empty empty
  rw [← primary_normalize rendered]
  exact Named.setAll_of_new (List.nodup_cons.mpr ⟨new, files⟩)

theorem join_backendDirectory {backend name : String} (dir : Path.IsName backend)
    (file : Path.IsName name) :
    (backendDirectory directory backend).join (.ofString name) =
      below directory [backend, name] := by
  simp [backendDirectory, Path.join, dir.ofString, file.ofString, below]

theorem documents_eq (plain : PlainNames serializers outputs) {output : String × Rendered}
    (mem : output ∈ outputs) :
    documents serializers directory output.1 output.2 =
      (targets serializers output).map fun target => (below directory target.1, target.2) := by
  have dir := plain.directories output mem
  unfold documents targets
  rw [documents_normalize (plain.files output mem) (plain.fileNames output mem), List.map_cons,
    List.map_cons, List.map_map]
  congr 1
  · rw [← join_backendDirectory dir (plain.primaries output mem)]
    rfl
  · refine List.map_congr_left fun file inside => ?_
    have named := plain.fileNames output mem file inside
    have filled : file.1.isEmpty = false := by simpa using named.not_empty
    simp only [Function.comp_apply, filled, Bool.false_eq_true, if_false,
      join_backendDirectory dir named]

theorem allDocuments_eq (plain : PlainNames serializers outputs) (manifest : String) :
    allDocuments serializers directory outputs manifest =
      (allTargets serializers outputs manifest).map fun target =>
        (below directory target.1, target.2) := by
  have each : (outputs.flatMap fun output => documents serializers directory output.1 output.2) =
      outputs.flatMap fun output =>
        (targets serializers output).map fun target => (below directory target.1, target.2) :=
    List.flatMap_congr fun output mem => documents_eq plain mem
  rw [allDocuments, each, allTargets, List.map_append, List.map_flatMap]
  rfl

theorem mem_targets {output : String × Rendered} {names : List String} :
    names ∈ (targets serializers output).map (·.1) ↔
      ∃ name ∈ primaryFile serializers output.1 :: output.2.normalize.files.map (·.1),
        names = [output.1, name] := by
  simp [targets, eq_comm]

theorem nodup_targets_iff {output : String × Rendered}
    (files : (output.2.normalize.files.map (·.1)).Nodup) :
    ((targets serializers output).map (·.1)).Nodup ↔
      primaryFile serializers output.1 ∉ output.2.normalize.files.map (·.1) := by
  have eq : (targets serializers output).map (·.1) =
      (primaryFile serializers output.1 :: output.2.normalize.files.map (·.1)).map
        fun name => [output.1, name] := by
    simp [targets]
  have injective : Function.Injective fun name => [output.1, name] := by
    intro name other same
    simpa using same
  rw [eq, List.nodup_map_iff injective, List.nodup_cons]
  exact and_iff_left files

theorem disjoint_targets {output other : String × Rendered} (ne : output.1 ≠ other.1) :
    List.Disjoint ((targets serializers output).map (·.1))
      ((targets serializers other).map (·.1)) := by
  intro names here there
  obtain ⟨name, -, rfl⟩ := mem_targets.mp here
  obtain ⟨second, -, same⟩ := mem_targets.mp there
  exact ne (List.cons_eq_cons.mp same).1

theorem manifest_not_mem_targets : [manifestFile] ∉
    (outputs.flatMap (targets serializers)).map (·.1) := by
  rw [List.map_flatMap]
  intro known
  obtain ⟨output, -, inside⟩ := List.mem_flatMap.mp known
  obtain ⟨name, -, same⟩ := mem_targets.mp inside
  simp at same

/-- All targets differ exactly when no backend has a document under the file name of its primary
one. -/
theorem nodup_allTargets_iff (plain : PlainNames serializers outputs) (manifest : String) :
    ((allTargets serializers outputs manifest).map (·.1)).Nodup ↔
      ∀ output ∈ outputs, primaryFile serializers output.1 ∉
        output.2.normalize.files.map (·.1) := by
  have apart : outputs.Pairwise fun output other =>
      List.Disjoint ((targets serializers output).map (·.1))
        ((targets serializers other).map (·.1)) :=
    (List.pairwise_map.mp plain.backends).imp disjoint_targets
  have alone : List.Disjoint ((outputs.flatMap (targets serializers)).map (·.1)) [[manifestFile]] :=
    List.disjoint_singleton.mpr manifest_not_mem_targets
  rw [allTargets, List.map_append, List.map_singleton, List.nodup_append', List.map_flatMap,
    List.nodup_flatMap]
  rw [List.map_flatMap] at alone
  constructor
  · rintro ⟨⟨each, -⟩, -, -⟩ output mem
    exact (nodup_targets_iff (plain.files output mem)).mp (each output mem)
  · intro each
    refine ⟨⟨fun output mem => ?_, apart⟩, List.nodup_singleton _, alone⟩
    exact (nodup_targets_iff (plain.files output mem)).mpr (each output mem)

/-! ## Places -/

theorem exists_of_mem_allTargets (plain : PlainNames serializers outputs)
    {target : List String × String} (mem : target ∈ allTargets serializers outputs text) :
    ∃ names name, target.1 = names ++ [name] ∧ ".." ∉ names ∧ name ≠ ".." := by
  rcases List.mem_append.mp mem with backend | last
  · obtain ⟨output, here, inside⟩ := List.mem_flatMap.mp backend
    obtain ⟨name, among, eq⟩ := mem_targets.mp (List.mem_map_of_mem (f := (·.1)) inside)
    refine ⟨[output.1], name, eq, ?_, ?_⟩
    · simpa [eq_comm] using (plain.directories output here).not_up
    · rcases List.mem_cons.mp among with rfl | named
      · exact (plain.primaries output here).not_up
      · obtain ⟨file, mem, rfl⟩ := List.mem_map.mp named
        exact (plain.fileNames output here file mem).not_up
  · obtain rfl := List.mem_singleton.mp last
    exact ⟨[], manifestFile, rfl, List.not_mem_nil, by decide⟩

theorem eq_of_resolve_eq (plain : PlainNames serializers outputs)
    {target other : List String × String} (mem : target ∈ allTargets serializers outputs text)
    (mem_other : other ∈ allTargets serializers outputs text) {place : List String}
    (led : u.resolve (below directory target.1) = .ok place)
    (led_other : u.resolve (below directory other.1) = .ok place) : target.1 = other.1 := by
  obtain ⟨names, name, eq, down, last⟩ := exists_of_mem_allTargets plain mem
  obtain ⟨names', name', eq', down', last'⟩ := exists_of_mem_allTargets plain mem_other
  rw [eq, below, ← List.append_assoc] at led
  rw [eq', below, ← List.append_assoc] at led_other
  obtain ⟨base, start, rfl⟩ := FileTree.resolve_below down last led
  obtain ⟨base', start', same⟩ := FileTree.resolve_below down' last' led_other
  cases start.symm.trans start'
  rw [eq, eq']
  simpa using same

/-- The last document under some names is on disk. -/
theorem fileAt?_of_last (plain : PlainNames serializers outputs)
    (root : t.IsDir [])
    (wrote : FileTree.Writes t (allDocuments serializers directory outputs text) u)
    {before after : List (List String × String)} {target : List String × String}
    (split : allTargets serializers outputs text = before ++ target :: after)
    (last : target.1 ∉ after.map (·.1)) :
    u.fileAt? (below directory target.1) = some target.2 := by
  rw [allDocuments_eq plain] at wrote
  obtain ⟨-, each, final⟩ := wrote.spec root
  have mem : target ∈ allTargets serializers outputs text := by simp [split]
  obtain ⟨place, led⟩ := each _ (List.mem_map_of_mem mem)
  refine final (before.map fun target => (below directory target.1, target.2))
    (below directory target.1, target.2)
    (after.map fun target => (below directory target.1, target.2)) (by simp [split]) ?_
  intro later inside same
  obtain ⟨other, among, rfl⟩ := List.mem_map.mp inside
  have mem_other : other ∈ allTargets serializers outputs text := by simp [split, among]
  exact last (eq_of_resolve_eq plain mem mem_other led (same.trans led) ▸
    List.mem_map_of_mem (f := (·.1)) among)

theorem not_mem_later {before after : Outputs} {output : String × Rendered}
    (backends : ((before ++ output :: after).map (·.1)).Nodup) (name : String) :
    [output.1, name] ∉
      (after.flatMap (targets serializers) ++ [([manifestFile], text)]).map (·.1) := by
  rw [List.map_append, List.map_flatMap]
  intro known
  rcases List.mem_append.mp known with backend | last
  · obtain ⟨other, here, inside⟩ := List.mem_flatMap.mp backend
    obtain ⟨second, -, same⟩ := mem_targets.mp inside
    have apart : ((output :: after).map (·.1)).Nodup :=
      backends.sublist ((List.sublist_append_right _ _).map _)
    refine (List.nodup_cons.mp apart).1 ?_
    exact List.mem_map.mpr ⟨other, here, (List.cons_eq_cons.mp same).1.symm⟩
  · simp at last

section Disk

variable (plain : PlainNames serializers outputs) (root : t.IsDir [])
  (wrote : FileTree.Writes t (allDocuments serializers directory outputs text) u)

include plain root wrote

theorem fileAt?_of_file {output : String × Rendered} (mem : output ∈ outputs)
    {file : String × String} (inside : file ∈ output.2.normalize.files) :
    u.fileAt? (below directory [output.1, file.1]) = some file.2 := by
  have files := plain.files output mem
  obtain ⟨before, after, rfl⟩ := List.append_of_mem mem
  obtain ⟨first, rest, split⟩ := List.append_of_mem inside
  have whole : allTargets serializers (before ++ output :: after) text =
      (before.flatMap (targets serializers) ++
        ([output.1, primaryFile serializers output.1], output.2.primary) ::
          first.map fun file => ([output.1, file.1], file.2)) ++
        ([output.1, file.1], file.2) :: ((rest.map fun file => ([output.1, file.1], file.2)) ++
          (after.flatMap (targets serializers) ++ [([manifestFile], text)])) := by
    simp [allTargets, targets, split]
  refine fileAt?_of_last plain root wrote whole ?_
  rw [List.map_append, List.mem_append, not_or]
  refine ⟨fun known => ?_, not_mem_later plain.backends file.1⟩
  have apart : ((file :: rest).map (·.1)).Nodup := by
    rw [split] at files
    exact files.sublist ((List.sublist_append_right _ _).map _)
  refine (List.nodup_cons.mp apart).1 ?_
  simpa using known

/-- The primary document of a backend is on disk unless another one has its file name. -/
theorem fileAt?_primary {output : String × Rendered} (mem : output ∈ outputs)
    (own : primaryFile serializers output.1 ∉ output.2.normalize.files.map (·.1)) :
    u.fileAt? (below directory [output.1, primaryFile serializers output.1]) =
      some output.2.primary := by
  obtain ⟨before, after, rfl⟩ := List.append_of_mem mem
  have whole : allTargets serializers (before ++ output :: after) text =
      before.flatMap (targets serializers) ++
        ([output.1, primaryFile serializers output.1], output.2.primary) ::
          ((output.2.normalize.files.map fun file => ([output.1, file.1], file.2)) ++
            (after.flatMap (targets serializers) ++ [([manifestFile], text)])) := by
    simp [allTargets, targets]
  refine fileAt?_of_last plain root wrote whole ?_
  rw [List.map_append, List.mem_append, not_or]
  refine ⟨fun known => own ?_, not_mem_later plain.backends _⟩
  simpa using known

end Disk

/-! ## Results of a build -/

/-- The document of the child project `main` has the file name of a primary one. -/
theorem childFile_eq_primaryFile_iff {name : String} :
    Template.childFile name = SerializerClass.template.primaryFile ↔ name = "main" := by
  rw [show SerializerClass.template.primaryFile = "main" ++ ".template.json" from rfl,
    Template.childFile, ← String.toList_inj, String.toList_append, String.toList_append,
    List.append_left_inj, String.toList_inj]

/-- When the writing returns, it lists the paths of all documents in order, the manifest is on disk,
and of the documents at one place the last one, so that all are on disk exactly when those at one
place agree. Under plain names every named document is on disk, and so is the primary one, unless a
named document has its file name: then that one is in its place, and only then is a path listed
twice. Among the files of child projects only that of `main` has the file name of the primary
template. -/
theorem write_keeps_documents (root : t.isDirectory = true)
    (h : write t outputs serializers manifest directory = .ok (u, written)) :
    ∃ text, Json.document manifest = .ok text ∧
      written = (allDocuments serializers directory outputs text).map (·.1) ∧
      u.fileAt? (directory.child manifestFile) = some text ∧
      ((∀ doc ∈ allDocuments serializers directory outputs text,
          u.fileAt? doc.1 = some doc.2) ↔
        ∀ doc ∈ allDocuments serializers directory outputs text,
          ∀ other ∈ allDocuments serializers directory outputs text,
            u.resolve doc.1 = u.resolve other.1 → doc.2 = other.2) ∧
      (PlainNames serializers outputs →
        (written.Nodup ↔ ∀ output ∈ outputs,
          primaryFile serializers output.1 ∉ output.2.normalize.files.map (·.1)) ∧
        ∀ output ∈ outputs,
          (∀ file ∈ output.2.normalize.files,
            u.fileAt? ((directory.child output.1).child file.1) = some file.2) ∧
          u.fileAt? ((directory.child output.1).child (primaryFile serializers output.1)) =
            some ((output.2.normalize.files.lookup (primaryFile serializers output.1)).getD
              output.2.primary)) ∧
      ∀ name, Template.childFile name = SerializerClass.template.primaryFile ↔ name = "main" := by
  obtain ⟨text, document, wrote, rfl⟩ := writes_of_write h
  have dir := FileTree.isDir_nil_iff.mpr root
  refine ⟨text, document, rfl, ?_, wrote.all_iff dir, fun plain => ⟨?_, fun output mem => ?_⟩,
    fun name => childFile_eq_primaryFile_iff⟩
  · exact (wrote.spec dir).2.2 _ (directory.child manifestFile, text) [] rfl nofun
  · rw [allDocuments_eq plain, ← nodup_allTargets_iff plain text,
      ← List.nodup_map_iff (below_injective directory), List.map_map, List.map_map]
    rfl
  · have two : ∀ backend name, (directory.child backend).child name =
        below directory [backend, name] := by simp [Path.child, below]
    refine ⟨fun file inside => ?_, ?_⟩
    · rw [two]
      exact fileAt?_of_file plain dir wrote mem inside
    · rw [two]
      cases found : output.2.normalize.files.lookup (primaryFile serializers output.1) with
      | none =>
        refine fileAt?_primary plain dir wrote mem fun known => ?_
        obtain ⟨file, inside, same⟩ := List.mem_map.mp known
        have differ := List.lookup_eq_none_iff.mp found file inside
        simp [same] at differ
      | some content =>
        exact fileAt?_of_file plain dir wrote mem
          ((lookup_eq_some_iff_mem (plain.files output mem)).mp found)

section Nested

open Template

/-- What a build of the template backend gives: a template, and that of the child project with the
name. -/
def nestedOutputs (primary name : String) : Outputs :=
  [(Template.backend, .full ⟨primary, [(childFile name, bucketDocument)]⟩)]

/-- The serializer of the template backend. -/
def templateSerializers : Serializers :=
  [(SerializerClass.template.backend, SerializerClass.template.primaryFile)]

def outputDirectory : Path := ⟨"", ["out"]⟩

def backendsManifest : Datum := .record [("backends", .texts [Template.backend])]

def manifestText : String :=
"\x7b
  \"backends\": [
    \"template\"
  ]
\x7d"

theorem document_backendsManifest : Json.document backendsManifest = .ok manifestText := rfl

/-- The tree of the output directory and the directory of the backend in it. -/
def outputTree (beside files : List (String × FileTree String)) : FileTree String :=
  .directory [("out", .directory (beside ++ [("template", .directory files)]))]

theorem isName_backend : Path.IsName Template.backend :=
  ⟨by decide, by decide, by decide, by decide⟩

theorem primaryFile_templateSerializers :
    primaryFile templateSerializers Template.backend = "main.template.json" := by
  decide

theorem plainNames_nested {primary name : String} (file : Path.IsName (childFile name)) :
    PlainNames templateSerializers (nestedOutputs primary name) where
  backends := List.nodup_singleton _
  directories := List.forall_mem_singleton.mpr isName_backend
  primaries := List.forall_mem_singleton.mpr
    (primaryFile_templateSerializers ▸ ⟨by decide, by decide, by decide, by decide⟩)
  files := List.forall_mem_singleton.mpr (List.nodup_singleton _)
  fileNames := List.forall_mem_singleton.mpr (List.forall_mem_singleton.mpr file)

/-- The paths that the writing lists. -/
def nestedPaths (name : String) : List Path :=
  [⟨"", ["out", "template", "main.template.json"]⟩, ⟨"", ["out", "template", childFile name]⟩,
    ⟨"", ["out", "manifest.json"]⟩]

/-- The writing into an empty tree, given what the two documents and the manifest leave. -/
theorem write_nested {primary name : String} (file : Path.IsName (childFile name))
    {filled u : FileTree String}
    (wrote : writeAll (outputTree [] [])
      [(⟨"", ["out", "template", "main.template.json"]⟩, primary),
        (⟨"", ["out", "template", childFile name]⟩, bucketDocument)] = .ok filled)
    (made : filled.makeDirectories outputDirectory = .ok filled)
    (last : filled.write ⟨"", ["out", "manifest.json"]⟩ manifestText = .ok u) :
    write .empty (nestedOutputs primary name) templateSerializers backendsManifest
      outputDirectory = .ok (u, nestedPaths name) := by
  have docs : documents templateSerializers outputDirectory Template.backend
      (.full ⟨primary, [(childFile name, bucketDocument)]⟩) =
      [(⟨"", ["out", "template", "main.template.json"]⟩, primary),
        (⟨"", ["out", "template", childFile name]⟩, bucketDocument)] := by
    rw [documents_eq (plainNames_nested file) (List.mem_singleton.mpr rfl), targets,
      primaryFile_templateSerializers]
    rfl
  have dir : backendDirectory outputDirectory Template.backend = ⟨"", ["out", "template"]⟩ := by
    rw [backendDirectory, isName_backend.ofString]
    rfl
  have backend : writeBackend templateSerializers outputDirectory .empty
      (Template.backend, .full ⟨primary, [(childFile name, bucketDocument)]⟩) = .ok filled := by
    unfold writeBackend
    rw [dir, docs]
    exact bind_eq_ok_iff.mpr ⟨outputTree [] [], rfl, wrote⟩
  have backends : (nestedOutputs primary name).foldlM
      (writeBackend templateSerializers outputDirectory) .empty = .ok filled := by
    rw [nestedOutputs, List.foldlM_cons, backend]
    rfl
  refine bind_eq_ok_iff.mpr ⟨filled, backends, bind_eq_ok_iff.mpr ⟨filled, made, ?_⟩⟩
  refine bind_eq_ok_iff.mpr ⟨_, document_backendsManifest, bind_eq_ok_iff.mpr ⟨u, last, ?_⟩⟩
  rw [nestedOutputs, List.flatMap_singleton, docs]
  rfl

theorem isName_network : Path.IsName (childFile "network") :=
  ⟨by decide, by decide, by decide, by decide⟩

theorem write_network : write .empty (nestedOutputs emptyDocument "network") templateSerializers
    backendsManifest outputDirectory =
      .ok (outputTree [("manifest.json", .file manifestText)]
        [("main.template.json", .file emptyDocument),
          ("network.template.json", .file bucketDocument)], nestedPaths "network") :=
  write_nested isName_network rfl rfl rfl

/-- The template of the child project `network` is written beside that of the project. -/
theorem write_keeps_documents_network : ∃ u,
    (FileTree.empty : FileTree String).isDirectory = true ∧
      write .empty (nestedOutputs emptyDocument "network") templateSerializers backendsManifest
        outputDirectory = .ok (u, nestedPaths "network") ∧
      PlainNames templateSerializers (nestedOutputs emptyDocument "network") ∧
      (nestedPaths "network").Nodup ∧
      u.fileAt? ((outputDirectory.child Template.backend).child (childFile "network")) =
        some bucketDocument := by
  have plain : PlainNames templateSerializers (nestedOutputs emptyDocument "network") :=
    plainNames_nested isName_network
  obtain ⟨_, -, -, -, -, spec, -⟩ := write_keeps_documents rfl write_network
  obtain ⟨nodup, disk⟩ := spec plain
  refine ⟨_, rfl, write_network, plain, nodup.mpr ?_, ?_⟩
  · exact List.forall_mem_singleton.mpr (primaryFile_templateSerializers ▸ by decide)
  · exact (disk _ List.mem_cons_self).1 (childFile "network", bucketDocument) List.mem_cons_self

/-- A store of a child project that is built. -/
def childStore : Store :=
  ((Store.initial.newMapping []).2.newEntity .resource "ChildProject" Template.backend
    "Template::Stack" [] []
    (some ⟨"a", 0, [], some [(Template.backend, .full ⟨bucketDocument, []⟩)]⟩)).2

/-- The template of the project whose child project is called `main`. -/
def parentDocument : String :=
"\x7b
  \"FormatVersion\": \"tessera-template/1\",
  \"Parameters\": \x7b
    \"TemplateBasePath\": \x7b
      \"Type\": \"String\",
      \"Default\": \".\",
      \"Description\": \"Base path of nested stack templates\"
    \x7d
  \x7d,
  \"Resources\": \x7b
    \"main\": \x7b
      \"Type\": \"Template::Stack\",
      \"Properties\": \x7b
        \"TemplateURL\": \x7b
          \"Fn::Sub\": \"$\x7bTemplateBasePath\x7d/main.template.json\"
        \x7d,
        \"Parameters\": \x7b
          \"TemplateBasePath\": \x7b
            \"Ref\": \"TemplateBasePath\"
          \x7d
        \x7d
      \x7d
    \x7d
  \x7d
\x7d"

def parentDraft : Draft where
  parameters := baseParameter childStore [("main", .entity 0)]
  resources := [(.text "main", bareStack "main")]

set_option maxRecDepth 8000 in
theorem document_parentDraft : Json.document (assembled parentDraft []) = .ok parentDocument := by
  -- The characters of the literal, without decoding the bytes of the text.
  have chars : parentDocument.toList = _ := String.toList_ofList
  rw [Json.document_eq_ok_iff, chars]
  rfl

theorem serialize_parent :
    (serialize childStore ⟨["main"], markOutput, []⟩ [("main", .entity 0)] []).result =
      .ok ⟨parentDocument, [(childFile "main", bucketDocument)]⟩ :=
  serialize_eq_ok_iff.mpr ⟨parentDraft, [], rfl, rfl, document_parentDraft, rfl⟩

theorem write_main : write .empty (nestedOutputs parentDocument "main") templateSerializers
    backendsManifest outputDirectory =
      .ok (outputTree [("manifest.json", .file manifestText)]
        [("main.template.json", .file bucketDocument)], nestedPaths "main") := by
  have filled : writeAll (outputTree [] [])
      [(⟨"", ["out", "template", "main.template.json"]⟩, parentDocument),
        (⟨"", ["out", "template", childFile "main"]⟩, bucketDocument)] =
        .ok (outputTree [] [("main.template.json", .file bucketDocument)]) := rfl
  exact write_nested ⟨by decide, by decide, by decide, by decide⟩ filled rfl rfl

/-- The template of the child project `main` takes the place of that of the project. -/
theorem primary_replaced_by_child : ∃ r u,
    (serialize childStore ⟨["main"], markOutput, []⟩ [("main", .entity 0)] []).result = .ok r ∧
      write .empty [(Template.backend, .full r)] templateSerializers backendsManifest
        outputDirectory = .ok (u, nestedPaths "main") ∧
      ¬ (nestedPaths "main").Nodup ∧
      u.fileAt? ⟨"", ["out", "template", "main.template.json"]⟩ = some bucketDocument ∧
      bucketDocument ≠ r.primary :=
  ⟨_, _, serialize_parent, write_main, by decide, rfl, by decide +kernel⟩

end Nested

end Infra.Artifact
