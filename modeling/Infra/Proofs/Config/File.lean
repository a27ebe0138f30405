import Infra.Cli.Run
import Infra.Proofs.Json.Extent
import Infra.Proofs.Toml.Extent

/-!
# Refused configuration files

A configuration file is read, or refused as an invalid configuration. There are three more refusals,
which are none of these: bytes that are no text, a decimal integer with too many digits, and parts
that are nested beyond the room for them.

* `Checked.Explained` : a document that is refused for its form has a finding to report;
* `ConfigFile.Refusal`, `ConfigFile.Loads` : the refusals of a file, and how its loading ends;
* `ConfigFile.refusal_parse`, `ConfigFile.loads_of_find` : so it is for a document and for a file;
* `ConfigFile.load_spec` : so it is for the file that counts, where one of the two stands;
  `ConfigFile.parse_long`, `ConfigFile.parse_json_nested`, `ConfigFile.parse_toml_nested` : integers
  with too many digits are refused as such, and lists that are nested too deeply;
  `ConfigFile.undecodable_escapes` : bytes that are no text end a command without a message.
-/

namespace Infra

namespace Checked

variable {α β : Type}

/-- A refusal has a finding. -/
def Explained (x : Checked α) : Prop := x ≠ .error []

namespace Explained

theorem ok (a : α) : Explained (.ok a) := nofun

theorem refuse (d : Datum) (message : String) : Explained (Checked.refuse d message : Checked α) :=
  nofun

theorem map {x : Checked α} (h : x.Explained) (f : α → β) : Explained (x.map f) := by
  cases x with
  | ok a => exact .ok (f a)
  | error found =>
    rintro ⟨⟩
    exact h rfl

theorem and {x : Checked α} {y : Checked β} (hx : x.Explained) (hy : y.Explained) :
    (x.and y).Explained := by
  cases x with
  | ok a =>
    cases y with
    | ok b => exact .ok (a, b)
    | error found =>
      rintro ⟨⟩
      exact hy rfl
  | error first =>
    cases y with
    | ok b =>
      rintro ⟨⟩
      exact hx rfl
    | error second =>
      intro none
      have empty : first ++ second = [] := Except.error.inj none
      exact hx (congrArg _ (List.append_eq_nil_iff.mp empty).1)

theorem within {x : Checked α} (h : x.Explained) (name : String) : (x.within name).Explained := by
  cases x with
  | ok a => exact .ok a
  | error found =>
    intro none
    have empty : found.map _ = [] := Except.error.inj none
    exact h (congrArg _ (List.map_eq_nil_iff.mp empty))

theorem all {parts : List (Checked α)} (h : ∀ part ∈ parts, part.Explained) :
    (Checked.all parts).Explained := by
  induction parts with
  | nil => exact .ok []
  | cons part rest ih =>
    exact ((h part (.head _)).and (ih fun part mem => h part (.tail _ mem))).map _

theorem text (d : Datum) : (Checked.text d).Explained := by
  unfold Checked.text
  split
  · exact .ok _
  · exact .refuse _ _

theorem texts (d : Datum) : (Checked.texts d).Explained := by
  unfold Checked.texts
  split
  · refine .all fun part mem => ?_
    obtain ⟨⟨item, n⟩, -, rfl⟩ := List.mem_map.mp mem
    exact (text item).within _
  · exact .refuse _ _

theorem textTable (d : Datum) : (Checked.textTable d).Explained := by
  unfold Checked.textTable
  split
  · refine .all fun part mem => ?_
    obtain ⟨entry, -, rfl⟩ := List.mem_map.mp mem
    exact ((text entry.2).map _).within _
  · exact .refuse _ _

theorem entry {check : Datum → Checked α} (h : ∀ d, (check d).Explained)
    (entries : List (Value × Datum)) (name : String) (standard : α) :
    (Checked.entry entries name standard check).Explained := by
  unfold Checked.entry
  split
  · exact (h _).within name
  · exact .ok standard

end Explained
end Checked

open Checked (Explained)

theorem LintConfig.explained_ofDatum (d : Datum) : (LintConfig.ofDatum d).Explained := by
  unfold LintConfig.ofDatum
  split
  · rename_i entries
    exact ((Explained.entry .texts entries "extends" []).and
      (.entry .textTable entries "rules" [])).map _
  · exact .refuse _ _

namespace ProjectConfig

theorem explained_sourceDirOf (d : Datum) : (sourceDirOf d).Explained := by
  unfold sourceDirOf
  split
  · exact .ok none
  · exact (Explained.text d).map _

theorem explained_ofTable (entries : List (Value × Datum)) : (ofTable entries).Explained :=
  ((Explained.entry .texts entries "backends" []).and
    ((Explained.entry explained_sourceDirOf entries "source_dir" none).and
      (.entry LintConfig.explained_ofDatum entries "lint" .standard))).map _

end ProjectConfig

namespace ConfigFile

/-- Why a file of a form with the bytes is refused. -/
inductive Refusal (reading : Reading) (form : Form) (path : Path) (bytes : ByteArray) :
    Fault → Prop
  /-- Its text is no document of the form, or the document is no table. -/
  | unread {text : String} (value : Datum) (message : String) :
      String.fromUTF8? bytes = some text →
      Refusal reading form path bytes (.failed (.invalidConfig path.toString value message))
  /-- Its table is no configuration: the first finding is reported. -/
  | unfit {entries : List (Value × Datum)} {first : Finding} {others : List Finding} :
      parse reading form path bytes = .ok (.table entries) →
      ProjectConfig.ofTable entries = .error (first :: others) →
      Refusal reading form path bytes (invalid form (first :: others))
  /-- Its bytes are no text. -/
  | notText : String.fromUTF8? bytes = none → Refusal reading form path bytes .notUtf8
  /-- An integer in its text has more digits than are read. -/
  | tooLong {text : String} {count : Nat} :
      String.fromUTF8? bytes = some text → 4300 < count →
      HasDigits count (Text.asRead text).toList →
      Refusal reading form path bytes (.badValue (Json.ReadFault.text [] (.tooManyDigits count)))
  /-- There is no room for the calls that its text may need, three for each opening of a list or a
  table. -/
  | tooDeep {text : String} :
      String.fromUTF8? bytes = some text →
      reading.room.Below (3 * openings (Text.asRead text).toList + 1) →
      Refusal reading form path bytes .tooDeep

/-- How the loading of a file of a form with the bytes ends. -/
inductive Loads (reading : Reading) (form : Form) (path : Path) (bytes : ByteArray) :
    Except Fault Resolved → Prop
  /-- With the configuration that its table spells. -/
  | read {entries : List (Value × Datum)} {config : ProjectConfig} :
      parse reading form path bytes = .ok (.table entries) →
      ProjectConfig.ofTable entries = .ok config →
      Loads reading form path bytes (.ok ⟨config, some path⟩)
  | refused {fault : Fault} :
      Refusal reading form path bytes fault → Loads reading form path bytes (.error fault)

variable {reading : Reading} {form : Form} {path : Path} {bytes : ByteArray}

theorem refusal_parse {fault : Fault} (h : parse reading form path bytes = .error fault) :
    Refusal reading form path bytes fault := by
  unfold parse at h
  split at h
  · rename_i undecodable
    cases h
    exact .notText undecodable
  · rename_i text decoded
    cases form with
    | toml =>
      simp only [parseToml] at h
      split at h
      · cases h
      · cases h
        exact .unread _ _ decoded
      · rename_i value refused
        cases h
        obtain ⟨count, rfl, long, digits⟩ := Toml.tooLong_of_read refused
        exact .tooLong decoded long digits
      · rename_i refused
        cases h
        exact .tooDeep decoded (Toml.below_of_read refused)
    | json =>
      simp only [parseJson] at h
      split at h
      · cases h
      · rename_i refused
        cases h
        exact .tooDeep decoded ((Json.below_of_read refused).mono (by omega))
      · rename_i count refused
        cases h
        obtain ⟨long, digits⟩ := Json.hasDigits_of_read refused
        exact .tooLong decoded long digits
      · cases h
        exact .unread _ _ decoded

theorem exists_text_of_parse {d : Datum} (h : parse reading form path bytes = .ok d) :
    ∃ text, String.fromUTF8? bytes = some text := by
  unfold parse at h
  split at h
  · cases h
  · rename_i text decoded
    exact ⟨text, decoded⟩

theorem loads_check {d : Datum} (document : parse reading form path bytes = .ok d) :
    Loads reading form path bytes ((check form path d).map fun config => ⟨config, some path⟩) := by
  unfold check
  split
  · rename_i entries
    cases checked : ProjectConfig.ofTable entries with
    | ok config => exact .read document checked
    | error findings =>
      cases findings with
      | nil => exact absurd checked (ProjectConfig.explained_ofTable entries)
      | cons first others => exact .refused (.unfit document checked)
  · obtain ⟨text, decoded⟩ := exists_text_of_parse document
    exact .refused (.unread _ _ decoded)

theorem loads_parse (reading : Reading) (form : Form) (path : Path) (bytes : ByteArray) :
    Loads reading form path bytes
      ((parse reading form path bytes >>= check form path).map
        fun config => ⟨config, some path⟩) := by
  cases document : parse reading form path bytes with
  | error fault => exact .refused (refusal_parse document)
  | ok d => exact loads_check document

/-- A text without carriage returns is read as it is. -/
theorem asRead_ofList {cs : List Char} (oneLine : '\r' ∉ cs) :
    Text.asRead (String.ofList cs) = String.ofList cs := by
  rw [Text.asRead, String.toList_ofList, Text.unifyLines_of_not_mem oneLine]

/-- The refusal for too many digits is met: by every file in JSON that is a single such integer. -/
theorem parse_long {ds : List Char} (whole : Json.Whole ds) (long : 4300 < ds.length)
    (decoded : String.fromUTF8? bytes = some (String.ofList ds)) :
    parse reading .json path bytes =
      .error (.badValue (Json.ReadFault.text [] (.tooManyDigits ds.length))) := by
  have oneLine : '\r' ∉ ds := fun mem => by cases whole.isDigit _ mem
  simp only [parse, decoded, parseJson, asRead_ofList oneLine, Json.read_long whole long]

/-- The refusal for want of room is met in JSON: by every file that begins with more lists inside
each other than there is room for. -/
theorem parse_json_nested {n count : Nat} {rest : List Char} (plain : '\r' ∉ rest)
    (room : reading.room = some n) (short : n < count)
    (decoded : String.fromUTF8? bytes = some (String.ofList (List.replicate count '[' ++ rest))) :
    parse reading .json path bytes = .error .tooDeep := by
  have oneLine : '\r' ∉ List.replicate count '[' ++ rest := by
    simpa [List.mem_replicate] using plain
  simp only [parse, decoded, parseJson, room, asRead_ofList oneLine,
    Json.read_nested n count short]

/-- It is met in TOML: by every file that begins with an entry of more than half as many lists. -/
theorem parse_toml_nested {n count : Nat} {rest : List Char} (plain : '\r' ∉ rest)
    (room : reading.room = some n) (short : n < 2 * count)
    (decoded : String.fromUTF8? bytes =
      some (String.ofList ('x' :: '=' :: (List.replicate count '[' ++ rest)))) :
    parse reading .toml path bytes = .error .tooDeep := by
  have oneLine : '\r' ∉ 'x' :: '=' :: (List.replicate count '[' ++ rest) := by
    simpa [List.mem_replicate] using plain
  simp only [parse, decoded, parseToml, room, asRead_ofList oneLine, Toml.read_nested n count short]

theorem Loads.label_eq {outcome : Except Fault Resolved}
    (h : Loads reading form path bytes outcome) {failure : Failure}
    (refused : outcome = .error (.failed failure)) : failure.kind.label = "InvalidConfigError" := by
  subst refused
  cases h with
  | refused refusal =>
    cases refusal with
    | unread _ _ _ => rfl
    | unfit _ _ => rfl

/-! ## The file that counts -/

section

variable {t : FileTree ByteArray} {directory : Path}

theorem result_load (reading : Reading) (t : FileTree ByteArray) (directory : Path) :
    (load reading t directory).result =
      match find? t directory with
      | none => .ok ⟨.standard, none⟩
      | some (form, path, bytes) =>
        (parse reading form path bytes >>= check form path).map
          fun config => ⟨config, some path⟩ := by
  unfold load
  cases find? t directory with
  | none => rfl
  | some found =>
    obtain ⟨form, path, bytes⟩ := found
    dsimp only
    cases parse reading form path bytes >>= check form path with
    | error fault => rfl
    | ok config => rfl

theorem loads_of_find (h : find? t directory = some (form, path, bytes)) :
    Loads reading form path bytes (load reading t directory).result := by
  rw [result_load, h]
  exact loads_parse reading form path bytes

theorem find?_toml (h : t.fileAt? (directory.child "tessera.toml") = some bytes) :
    find? t directory = some (.toml, directory.child "tessera.toml", bytes) := by
  simp [find?, Form.fileName, h]

/-- The file in JSON counts where there is none in TOML. -/
theorem find?_json (missing : t.fileAt? (directory.child "tessera.toml") = none)
    (h : t.fileAt? (directory.child "tessera.json") = some bytes) :
    find? t directory = some (.json, directory.child "tessera.json", bytes) := by
  simp [find?, Form.fileName, missing, h]

theorem find?_none (missing : t.fileAt? (directory.child "tessera.toml") = none)
    (h : t.fileAt? (directory.child "tessera.json") = none) : find? t directory = none := by
  simp [find?, Form.fileName, missing, h]

end

/-- A project has the configuration of the first of the two files that is there, or without one the
standard configuration. What a file is refused for is an invalid configuration, or its bytes are no
text, or an integer in it has too many digits, or there is no room for parts of it. -/
theorem load_spec (reading : Reading) (t : FileTree ByteArray) (directory : Path) :
    let toml := directory.child "tessera.toml"
    let json := directory.child "tessera.json"
    let outcome := (load reading t directory).result
    (match t.fileAt? toml, t.fileAt? json with
      | some bytes, _ => Loads reading .toml toml bytes outcome
      | none, some bytes => Loads reading .json json bytes outcome
      | none, none => outcome = .ok ⟨.standard, none⟩) ∧
    ∀ failure, outcome = .error (.failed failure) →
      failure.kind.label = "InvalidConfigError" := by
  intro toml json outcome
  cases inToml : t.fileAt? toml with
  | some bytes =>
    have loads : Loads reading .toml toml bytes outcome := loads_of_find (find?_toml inToml)
    exact ⟨loads, fun _ => loads.label_eq⟩
  | none =>
    cases inJson : t.fileAt? json with
    | some bytes =>
      have loads : Loads reading .json json bytes outcome := loads_of_find (find?_json inToml inJson)
      exact ⟨loads, fun _ => loads.label_eq⟩
    | none =>
      have standard : outcome = .ok ⟨.standard, none⟩ := by
        rw [show outcome = _ from result_load reading t directory, find?_none inToml inJson]
      refine ⟨standard, fun failure refused => ?_⟩
      cases standard.symm.trans refused

/-- A project whose configuration file is a single byte that is no text. -/
def undecodableTree : FileTree SourceUnit.ProjectFile :=
  .directory [("tessera.toml", .file (.bytes ⟨#[0xff]⟩))]

/-- Its configuration is refused, but not as an invalid one, and a command ends without a
message. -/
theorem undecodable_escapes :
    let reading : Reading := ⟨none, fun _ => "invalid document"⟩
    (load reading (Cli.bytes undecodableTree) ⟨"", []⟩).result = .error .notUtf8 ∧
      Fault.notUtf8.label = "UnicodeDecodeError" ∧
      Cli.list reading undecodableTree ⟨"", []⟩ false = .crashed := by
  intro reading
  have inToml : (Cli.bytes undecodableTree).fileAt? (Path.child ⟨"", []⟩ "tessera.toml") =
      some ⟨#[0xff]⟩ := by
    decide
  have undecodable : String.fromUTF8? ⟨#[0xff]⟩ = none := by decide
  have refused : (load reading (Cli.bytes undecodableTree) ⟨"", []⟩).result = .error .notUtf8 := by
    rw [result_load, find?_toml inToml]
    simp only [parse, undecodable]
    rfl
  refine ⟨refused, rfl, ?_⟩
  simp only [Cli.list, Cli.project, refused]

end ConfigFile
end Infra
