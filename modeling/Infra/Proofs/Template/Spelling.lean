import Infra.Proofs.Template.Draft
import Infra.Proofs.Template.Formed

/-!
# Properties in their rendered spelling

A resource and a property entity are rendered to a table of their set properties. Several spellings
of a key are rendered as one, so that properties can meet there.

* `Template.SameSpelling s a b` : two keys have the same rendered spelling;
  `Template.SpelledApart` : no two set properties have keys like that;
* `Template.Rows` : what the table of some properties has: an entry for each set one, when they are
  spelled apart, and otherwise the last one of each spelling;
* `Template.renders_set_props` : every resource of a template, and every property entity that is
  inlined, has such a table.
-/

namespace Infra.Template

variable {s : Store} {plan : Plan} {n : Namespace} {render : Value → Except Fault Datum}
  {entries : List (Value × Value)} {settings : List (Value × Datum)}

/-! ## Rendered properties -/

/-- A property and the entry that it is rendered to. -/
def Row (s : Store) (render : Value → Except Fault Datum) (entry : Value × Value)
    (row : Value × Datum) : Prop :=
  renderedKey s entry.1 = .ok row.1 ∧ render entry.2 = .ok row.2

/-- Two keys have the same rendered spelling. -/
def SameSpelling (s : Store) (a b : Value) : Prop :=
  ∃ j k, renderedKey s a = .ok j ∧ renderedKey s b = .ok k ∧ j.sameScalar k

/-- No two of the set properties have the same rendered spelling. -/
def SpelledApart (s : Store) (entries : List (Value × Value)) : Prop :=
  (present entries).Pairwise fun a b => ¬ SameSpelling s a.1 b.1

/-- An entry after which no other has the same rendered spelling. -/
def Last (s : Store) (entries : List (Value × Value)) (entry : Value × Value) : Prop :=
  ∃ before after, entries = before ++ entry :: after ∧
    ∀ later ∈ after, ¬ SameSpelling s later.1 entry.1

/-- The table of some properties. It has as many entries as there are set ones exactly when these
are spelled apart, and has each of them in its place then. In general it has the last set property of
each spelling, and nothing else. -/
structure Rows (s : Store) (render : Value → Except Fault Datum) (entries : List (Value × Value))
    (props : List (Value × Datum)) : Prop where
  count : props.length = (present entries).length ↔ SpelledApart s entries
  each : SpelledApart s entries → List.Forall₂ (Row s render) (present entries) props
  last : ∀ entry, Last s (present entries) entry →
    ∃ row, Row s render entry row ∧ Entries.value? props row.1 = some row.2
  only : ∀ row ∈ props, ∃ entry key, Last s (present entries) entry ∧
    Row s render entry (key, row.2) ∧ key.sameScalar row.1

theorem sameSpelling_text {a b : String} :
    SameSpelling s (.text a) (.text b) ↔ Text.pascalCase a = Text.pascalCase b := by
  constructor
  · rintro ⟨_, _, left, right, same⟩
    cases left
    cases right
    exact (Value.sameScalar_text _ _).mp same
  · exact fun same => ⟨_, _, rfl, rfl, (Value.sameScalar_text _ _).mpr same⟩

/-- Properties under texts are spelled apart when their rendered spellings are different. -/
theorem spelledApart_iff (texts : ∀ entry ∈ present entries, ∃ k, entry.1 = .text k) :
    SpelledApart s entries ↔ ((spelled Text.pascalCase (present entries)).map (·.1)).Nodup := by
  unfold SpelledApart
  generalize present entries = given at texts ⊢
  induction given with
  | nil => exact iff_of_true .nil .nil
  | cons entry rest ih =>
    obtain ⟨⟨k, eq⟩, later⟩ := List.forall_mem_cons.mp texts
    obtain ⟨_, v⟩ := entry
    obtain rfl : _ = Value.text k := eq
    have head : spelled Text.pascalCase ((.text k, v) :: rest) =
        (Text.pascalCase k, v) :: spelled Text.pascalCase rest := rfl
    rw [List.pairwise_cons, ih later, head, List.map_cons, List.nodup_cons]
    refine and_congr_left fun _ => ⟨fun apart known => ?_, fun new other mem same => ?_⟩
    · obtain ⟨⟨_, w⟩, inside, spelling⟩ := List.mem_map.mp known
      obtain ⟨k', eq, mem⟩ := mem_spelled.mp inside
      exact apart _ mem (sameSpelling_text.mpr (spelling.symm.trans eq))
    · obtain ⟨k', eq⟩ := later other mem
      rw [eq] at same
      refine new (List.mem_map.mpr ⟨(Text.pascalCase k', other.2), mem_spelled.mpr ?_, ?_⟩)
      · exact ⟨k', rfl, eq ▸ mem⟩
      · exact (sameSpelling_text.mp same).symm

theorem rows_of_renderEntries (h : renderEntries (renderedKey s) render entries = .ok settings) :
    List.Forall₂ (Row s render) entries settings := by
  refine (mapM_eq_ok_iff.mp h).imp fun entry row made => ?_
  obtain ⟨k, spelling, later⟩ := bind_eq_ok_iff.mp made
  obtain ⟨d, value, eq⟩ := bind_eq_ok_iff.mp later
  cases eq
  exact ⟨spelling, value⟩

theorem sameSpelling_iff {a b : Value × Value} {j k : Value × Datum} (first : Row s render a j)
    (second : Row s render b k) : SameSpelling s a.1 b.1 ↔ j.1.sameScalar k.1 = true := by
  constructor
  · rintro ⟨_, _, left, right, same⟩
    cases left.symm.trans first.1
    cases right.symm.trans second.1
    exact same
  · exact fun same => ⟨j.1, k.1, first.1, second.1, same⟩

theorem pairwise_iff_apart (rows : List.Forall₂ (Row s render) entries settings) :
    (entries.Pairwise fun a b => ¬ SameSpelling s a.1 b.1) ↔ Entries.Apart settings := by
  unfold Entries.Apart
  induction rows with
  | nil => exact iff_of_true .nil .nil
  | @cons entry row _ _ first rest ih =>
    rw [List.pairwise_cons, List.pairwise_cons, ih]
    refine and_congr_left fun _ => ⟨fun apart other mem => ?_, fun apart other mem => ?_⟩
    · obtain ⟨source, inside, second⟩ := exists_left_of_mem rest mem
      exact Bool.eq_false_iff.mpr fun same =>
        apart source inside ((sameSpelling_iff first second).mpr same)
    · obtain ⟨setting, inside, second⟩ := exists_right_of_mem rest mem
      exact fun same =>
        Bool.eq_false_iff.mp (apart setting inside) ((sameSpelling_iff first second).mp same)

theorem last_of_last (rows : List.Forall₂ (Row s render) entries settings) {entry : Value × Value}
    (last : Last s entries entry) : ∃ row, Entries.Last settings row ∧ Row s render entry row := by
  obtain ⟨before, after, rfl, final⟩ := last
  have rest := List.forall₂_drop_append settings before (entry :: after) rows.flip
  obtain ⟨row, others, made, below, tail⟩ := List.forall₂_cons_right_iff.mp rest
  refine ⟨row, ⟨settings.take before.length, others, ?_, fun other mem => ?_⟩, made⟩
  · rw [← tail, List.take_append_drop]
  · obtain ⟨later, inside, second⟩ := exists_right_of_mem below mem
    exact Bool.eq_false_iff.mpr fun same =>
      final later inside ((sameSpelling_iff second made).mpr same)

theorem exists_last (rows : List.Forall₂ (Row s render) entries settings) {row : Value × Datum}
    (last : Entries.Last settings row) : ∃ entry, Last s entries entry ∧ Row s render entry row := by
  obtain ⟨before, after, rfl, final⟩ := last
  have rest := List.forall₂_drop_append entries before (row :: after) rows
  obtain ⟨entry, others, made, below, tail⟩ := List.forall₂_cons_right_iff.mp rest
  refine ⟨entry, ⟨entries.take before.length, others, ?_, fun other mem => ?_⟩, made⟩
  · rw [← tail, List.take_append_drop]
  · obtain ⟨later, inside, second⟩ := exists_right_of_mem below mem
    exact fun same =>
      Bool.eq_false_iff.mp (final later inside) ((sameSpelling_iff second made).mp same)

theorem rows_ofList (rows : List.Forall₂ (Row s render) (present entries) settings) :
    Rows s render entries (Entries.ofList settings) where
  count := by
    rw [SpelledApart, pairwise_iff_apart rows, rows.length_eq, Entries.length_ofList_eq_iff]
  each apart := by
    rwa [Entries.ofList_of_apart ((pairwise_iff_apart rows).mp apart)]
  last entry last := by
    obtain ⟨row, last, made⟩ := last_of_last rows last
    exact ⟨row, made, Entries.value?_of_last last⟩
  only row mem := by
    obtain ⟨⟨key, d⟩, last, same, rfl⟩ := Entries.exists_last_of_mem mem
    obtain ⟨entry, last, made⟩ := exists_last rows last
    exact ⟨entry, key, last, made, same⟩

/-! ## Resources and property entities -/

/-- A plain resource has the table of its properties under `Properties`, unless it is empty. -/
theorem properties_resourceForm {name : String} {id : Nat} {d : Datum}
    (h : resourceForm s plan n name id = .ok d) :
    ∃ settings, renderEntries (renderedKey s) (form s plan true) (present (s.props id)) =
        .ok settings ∧
      d.get? "Properties" = if (Entries.ofList settings).isEmpty then none
        else some (.table (Entries.ofList settings)) := by
  obtain ⟨props, made, eq⟩ := bind_eq_ok_iff.mp h
  obtain ⟨settings, rendered, kept⟩ := bind_eq_ok_iff.mp made
  refine ⟨settings, rendered, ?_⟩
  obtain rfl : Entries.ofList settings = props := Except.ok.inj kept
  generalize explicitDependencies s plan n name _ = explicit at eq
  generalize Entries.ofList settings = props at eq ⊢
  cases eq
  cases props with
  | nil =>
    cases explicit with
    | nil => rfl
    | cons dep rest => rfl
  | cons row others => rfl

/-- An inlined property entity has the form of the table of its properties, unless it is empty. -/
theorem rows_of_renderTo {names : List String} {convert : Bool} {cross : CrossReference}
    {e depth : Nat} {d : Datum} (kind : (s.entity e).kind = .property)
    (h : s.renderTo (visitor s names convert cross) (depth + 1) (.entity e) = .ok d) :
    ∃ props, d = (if props.isEmpty then .null else .table props) ∧
      Rows s (s.renderTo (visitor s names convert cross) depth) (s.props e) props := by
  obtain ⟨settings, rendered, eq⟩ := renderTo_property kind h
  exact ⟨_, eq, rows_ofList (rows_of_renderEntries rendered)⟩

/-- Every plain resource of a template has the table of its properties, and so has every property
entity wherever it is inlined. The table has an entry for each set property exactly when no two of
them have the same rendered spelling, and then it is theirs one by one. In general it has the last
set property of each spelling. -/
theorem renders_set_props {draft : Draft} (names : (n.map (·.1)).Nodup)
    (h : drafted s plan n = .ok draft) :
    (∀ name id, (name, .entity id) ∈ n → stands s (name, .entity id) = true →
      (s.entity id).child = none → ∃ d props, (.text name, d) ∈ draft.resources ∧
        d.get? "Properties" = (if props.isEmpty then none else some (.table props)) ∧
        Rows s (form s plan true) (s.props id) props) ∧
    ∀ e, (s.entity e).kind = .property → ∀ depth d,
      s.renderTo (visitor s plan.names true plan.cross) (depth + 1) (.entity e) = .ok d →
      ∃ props, d = (if props.isEmpty then .null else .table props) ∧
        Rows s (s.renderTo (visitor s plan.names true plan.cross) depth) (s.props e) props := by
  refine ⟨fun name id mem standing plain => ?_, fun e kind depth d rendered =>
    rows_of_renderTo kind rendered⟩
  obtain ⟨d, inside, drawn⟩ := exists_drawn names h mem standing
  cases drawn with
  | stack child _ => cases plain.symm.trans child
  | plain _ form =>
    obtain ⟨settings, rendered, properties⟩ := properties_resourceForm form
    exact ⟨d, _, inside, properties, rows_ofList (rows_of_renderEntries rendered)⟩

/-- A group with a rule that is inlined; one property of the rule is not set. -/
def groupStore : Store :=
  let s := (Store.initial.newEntity .property "Rule" "template" "Net::Rule"
    [(.text "cidr_block", .text "10.0.0.0/8"), (.text "note", .null), (.text "port", .int 22)]
    [] none).2
  (s.newEntity .resource "Group" "template" "Net::Group"
    [(.text "group_name", .text "web"), (.text "ingressRule", .entity 0)] [] none).2

theorem spelledApart_groupStore {id : Nat} (known : id < 2) :
    SpelledApart groupStore (groupStore.props id) := by
  match id, known with
  | 0, _ | 1, _ =>
    refine (spelledApart_iff ?_).mpr (by decide +kernel)
    rintro _ (_ | ⟨_, _ | ⟨_, ⟨⟩⟩⟩)
    · exact ⟨_, rfl⟩
    · exact ⟨_, rfl⟩

/-- The group and the rule have an entry for each of their set properties. -/
theorem renders_set_props_group :
    let plan : Plan := ⟨["group"], markOutput, []⟩
    ∃ draft d props rule rows, drafted groupStore plan [("group", .entity 1)] = .ok draft ∧
      (.text "group", d) ∈ draft.resources ∧ d.get? "Properties" = some (.table props) ∧
      props.length = 2 ∧ Entries.value? props (.text "IngressRule") = some rule ∧
      rule = .table rows ∧ rows.length = 2 := by
  intro plan
  obtain ⟨draft, drawn⟩ : ∃ draft, drafted groupStore plan [("group", .entity 1)] = .ok draft :=
    ⟨_, rfl⟩
  obtain ⟨resources, inlined⟩ := renders_set_props (by decide) drawn
  obtain ⟨d, props, mem, properties, rows⟩ := resources "group" 1 (.head _) rfl rfl
  have two : props.length = 2 := rows.count.mpr (spelledApart_groupStore (by decide))
  obtain ⟨⟨_, rule⟩, ⟨spelling, made⟩, found⟩ :=
    rows.last (.text "ingressRule", .entity 0) ⟨[(.text "group_name", .text "web")], [], rfl, nofun⟩
  cases spelling
  obtain ⟨inner, form, rows'⟩ := inlined 0 rfl _ rule made
  have two' : inner.length = 2 := rows'.count.mpr (spelledApart_groupStore (by decide))
  refine ⟨draft, d, props, rule, inner, drawn, mem, ?_, two, found, ?_, two'⟩
  · rw [properties, if_neg fun empty => by rw [List.isEmpty_iff.mp empty] at two; cases two]
  · rw [form, if_neg fun empty => by rw [List.isEmpty_iff.mp empty] at two'; cases two']

/-- A bucket with a name under two spellings. -/
def twoNamesStore : Store :=
  (Store.initial.newEntity .resource "Bucket" "template" "Storage::Bucket"
    [(.text "bucket_name", .text "logs"), (.text "bucketName", .text "archive")] [] none).2

/-- The second name is all that the resource has. -/
theorem second_name_replaces_first :
    ∃ draft d, drafted twoNamesStore ⟨["bucket"], markOutput, []⟩ [("bucket", .entity 0)] =
        .ok draft ∧ (.text "bucket", d) ∈ draft.resources ∧
      d.get? "Properties" = some (.table [(.text "BucketName", .text "archive")]) ∧
      (present (twoNamesStore.props 0)).length = 2 :=
  ⟨_, _, rfl, .head _, rfl, rfl⟩

end Infra.Template
