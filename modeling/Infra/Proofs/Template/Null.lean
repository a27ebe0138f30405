import Infra.Proofs.Template.Spelling

/-!
# Nulls in rendered properties

Unset properties are left out of a table before their values are rendered. So a null gets into a
template from an unset value inside a container, and from a property entity with nothing set, whose
form is a null.

* `Datum.HasNull` : a null stands somewhere in a datum;
* `Template.ShowsNull` : the values whose forms have a null, told from the value alone;
  `Template.hasNull_renderTo_iff` : they are these;
* `Store.NullsDirect` : no container within reach holds an unset value; `exists_blank_of_showsNull` :
  every null is then that of a property entity with nothing set;
* `Template.nulls_of_properties` : the nulls in the resources of a template.
-/

namespace Infra

/-! ## Nulls of a datum -/

/-- A null stands in the datum: it is one, or one stands in an item or in the value of an entry. -/
inductive Datum.HasNull : Datum → Prop
  | null : HasNull (.leaf .null)
  | item {items : List Datum} {d : Datum} : d ∈ items → HasNull d → HasNull (.list items)
  | value {entries : List (Value × Datum)} {entry : Value × Datum} : entry ∈ entries →
    HasNull entry.2 → HasNull (.table entries)

namespace Datum

theorem hasNull_leaf_iff {v : Value} : (leaf v).HasNull ↔ v = .null := by
  constructor
  · intro has
    cases has
    rfl
  · rintro rfl
    exact .null

theorem hasNull_list_iff {items : List Datum} :
    (list items).HasNull ↔ ∃ d ∈ items, d.HasNull := by
  constructor
  · intro has
    cases has with
    | item mem has => exact ⟨_, mem, has⟩
  · exact fun ⟨_, mem, has⟩ => .item mem has

theorem hasNull_table_iff {entries : List (Value × Datum)} :
    (table entries).HasNull ↔ ∃ entry ∈ entries, entry.2.HasNull := by
  constructor
  · intro has
    cases has with
    | value mem has => exact ⟨_, mem, has⟩
  · exact fun ⟨_, mem, has⟩ => .value mem has

theorem not_hasNull_text (text : String) : ¬ (Datum.text text).HasNull := fun has =>
  Value.noConfusion (hasNull_leaf_iff.mp has)

theorem not_hasNull_texts (names : List String) : ¬ (texts names).HasNull := by
  intro has
  obtain ⟨d, mem, has⟩ := hasNull_list_iff.mp has
  obtain ⟨name, -, rfl⟩ := List.mem_map.mp mem
  exact not_hasNull_text name has

theorem hasNull_of_single {key : String} {d : Datum} (has : (record [(key, d)]).HasNull) :
    d.HasNull := by
  obtain ⟨_, mem, has⟩ := hasNull_table_iff.mp has
  cases List.mem_singleton.mp mem
  exact has

theorem not_hasNull_single (key text : String) : ¬ (record [(key, .text text)]).HasNull := fun has =>
  not_hasNull_text text (hasNull_of_single has)

end Datum

/-! ## Values that show a null -/

/-- A property entity with nothing set. -/
structure Store.IsBlank (s : Store) (e : Nat) : Prop where
  kind : (s.entity e).kind = .property
  unset : Template.present (s.props e) = []

namespace Template

open Store

variable {s : Store} {plan : Plan} {n : Namespace}

/-- The form of a value has a null: the value is unset or a property entity with nothing set, or an
entry or item that it keeps shows a null. -/
inductive ShowsNull (s : Store) : Value → Prop
  | null : ShowsNull s .null
  | blank {e : Nat} : s.IsBlank e → ShowsNull s (.entity e)
  | item {q : Nat} {v : Value} : v ∈ (s.sequence q).items → ShowsNull s v →
    ShowsNull s (.sequence q)
  | entry {m : Nat} {entry : Value × Value} : Last s (s.mapping m) entry → ShowsNull s entry.2 →
    ShowsNull s (.mapping m)
  | nested {e : Nat} {entry : Value × Value} : (s.entity e).kind = .property →
    Last s (present (s.props e)) entry → ShowsNull s entry.2 → ShowsNull s (.entity e)

theorem showsNull_property_iff {e : Nat} (kind : (s.entity e).kind = .property)
    (filled : present (s.props e) ≠ []) : ShowsNull s (.entity e) ↔
      ∃ entry, Last s (present (s.props e)) entry ∧ ShowsNull s entry.2 := by
  constructor
  · intro shows
    cases shows with
    | blank blank => exact absurd blank.unset filled
    | nested _ last shows => exact ⟨_, last, shows⟩
  · exact fun ⟨_, last, shows⟩ => .nested kind last shows

theorem Last.mem {entries : List (Value × Value)} {entry : Value × Value}
    (last : Last s entries entry) : entry ∈ entries := by
  obtain ⟨before, after, rfl, -⟩ := last
  exact List.mem_append_right before List.mem_cons_self

/-- A table of rendered entries has a null where one of those that are kept shows it. -/
theorem hasNull_ofList_iff {render : Value → Except Fault Datum} {entries : List (Value × Value)}
    {settings : List (Value × Datum)}
    (h : renderEntries (renderedKey s) render entries = .ok settings)
    (each : ∀ v d, render v = .ok d → (d.HasNull ↔ ShowsNull s v)) :
    (Datum.table (Entries.ofList settings)).HasNull ↔
      ∃ entry, Last s entries entry ∧ ShowsNull s entry.2 := by
  have rows := rows_of_renderEntries h
  rw [Datum.hasNull_table_iff]
  constructor
  · rintro ⟨row, mem, has⟩
    obtain ⟨⟨_, _⟩, last, -, rfl⟩ := Entries.exists_last_of_mem mem
    obtain ⟨entry, last, made⟩ := exists_last rows last
    exact ⟨entry, last, (each _ _ made.2).mp has⟩
  · rintro ⟨entry, last, shows⟩
    obtain ⟨row, last, made⟩ := last_of_last rows last
    obtain ⟨key, mem⟩ := Entries.exists_mem_of_last last
    exact ⟨_, mem, (each _ _ made.2).mpr shows⟩

theorem form_of_property {names : List String} {convert : Bool} {cross : CrossReference}
    {e depth : Nat} {d : Datum} (kind : (s.entity e).kind = .property)
    (h : s.renderTo (visitor s names convert cross) (depth + 1) (.entity e) = .ok d) :
    ∃ settings, renderEntries (renderedKey s)
        (s.renderTo (visitor s names convert cross) depth) (present (s.props e)) = .ok settings ∧
      (s.IsBlank e ∧ d = .null ∨ ¬ s.IsBlank e ∧ d = .table (Entries.ofList settings)) := by
  obtain ⟨settings, rendered, eq⟩ := renderTo_property kind h
  have length := (rows_of_renderEntries rendered).length_eq
  refine ⟨settings, rendered, ?_⟩
  by_cases unset : present (s.props e) = []
  · rw [unset, List.length_nil, eq_comm, List.length_eq_zero_iff] at length
    rw [length] at eq
    exact .inl ⟨⟨kind, unset⟩, eq⟩
  · refine .inr ⟨fun blank => unset blank.unset, ?_⟩
    rwa [if_neg fun empty => ?_] at eq
    rw [List.isEmpty_iff, Entries.ofList_eq_nil_iff] at empty
    rw [empty, List.length_nil, List.length_eq_zero_iff] at length
    exact unset length

/-- The form of a value has a null exactly when the value shows one. -/
theorem hasNull_renderTo_iff {names : List String} {cross : CrossReference}
    (plain : ∀ name, ¬ (cross name).HasNull) {depth : Nat} {v : Value} {d : Datum}
    (h : s.renderTo (visitor s names true cross) depth v = .ok d) : d.HasNull ↔ ShowsNull s v := by
  induction depth generalizing v d with
  | zero => cases h
  | succ depth ih =>
    cases v with
    | reference ref =>
      refine iff_of_false (fun has => ?_) (by rintro ⟨⟩)
      simp only [Store.renderTo] at h
      split at h
      · cases h
        simp only [visitor] at has
        split at has
        · exact Datum.not_hasNull_texts _ (Datum.hasNull_of_single has)
        · exact plain _ has
      · cases h
    | intrinsic i =>
      obtain ⟨⟨key, text, rfl⟩, -⟩ := intrinsicForm_eq_ok h
      exact iff_of_false (Datum.not_hasNull_single _ _) (by rintro ⟨⟩)
    | output o =>
      cases h
      exact iff_of_false (Datum.not_hasNull_single _ _) (by rintro ⟨⟩)
    | entity e =>
      cases kind : (s.entity e).kind with
      | resource =>
        obtain ⟨name, -, rfl⟩ := renderTo_resource kind h
        refine iff_of_false (Datum.not_hasNull_single _ _) fun shows => ?_
        cases shows with
        | blank blank => cases kind.symm.trans blank.kind
        | nested property _ _ => cases kind.symm.trans property
      | property =>
        obtain ⟨settings, rendered, ⟨blank, rfl⟩ | ⟨filled, rfl⟩⟩ := form_of_property kind h
        · exact iff_of_true .null (.blank blank)
        · rw [showsNull_property_iff kind fun unset => filled ⟨kind, unset⟩]
          exact hasNull_ofList_iff rendered fun v d value => ih value
    | composite c => cases h
    | sequence q =>
      obtain ⟨items, rendered, rfl⟩ := map_eq_ok_iff.mp h
      rw [Datum.hasNull_list_iff]
      constructor
      · rintro ⟨d, inside, has⟩
        obtain ⟨item, mem, value⟩ := exists_of_mem_mapM rendered inside
        exact .item mem ((ih value).mp has)
      · intro shows
        cases shows with
        | item mem shows =>
          obtain ⟨d, inside, value⟩ := exists_right_of_mem (mapM_eq_ok_iff.mp rendered) mem
          exact ⟨d, inside, (ih value).mpr shows⟩
    | mapping m =>
      obtain ⟨settings, rendered, eq⟩ := bind_eq_ok_iff.mp h
      cases eq
      refine (hasNull_ofList_iff rendered fun v d value => ih value).trans ?_
      constructor
      · rintro ⟨entry, last, shows⟩
        exact .entry last shows
      · intro shows
        cases shows with
        | entry last shows => exact ⟨_, last, shows⟩
    | null =>
      cases h
      exact iff_of_true .null .null
    | bool _ | int _ | float _ | text _ | bytes _ | path _ | moment _ | module | function
    | constructor _ | definition _ =>
      cases h
      exact iff_of_false (by rintro ⟨⟩) (by rintro ⟨⟩)

/-! ## Where nulls come from -/

end Template

/-- No sequence or mapping within reach of the entity holds an unset value. -/
structure Store.NullsDirect (s : Store) (id : Nat) : Prop where
  items : ∀ q, s.Reaches id (.sequence q) → .null ∉ (s.sequence q).items
  values : ∀ m, s.Reaches id (.mapping m) → ∀ entry ∈ s.mapping m, entry.2 ≠ .null

namespace Template

theorem ne_null_of_mem_present {entries : List (Value × Value)} {entry : Value × Value}
    (mem : entry ∈ present entries) : entry.2 ≠ .null := by
  have set := (List.mem_filter.mp mem).2
  simpa using set

/-- Where unset values stand only directly in property entities, every null that is shown is that of
a property entity with nothing set. -/
theorem exists_blank_of_showsNull {id : Nat} (direct : s.NullsDirect id) {v : Value}
    (shows : ShowsNull s v) (reaches : s.Reaches id v) (set : v ≠ .null) :
    ∃ e, s.Reaches id (.entity e) ∧ s.IsBlank e := by
  induction shows with
  | null => exact absurd rfl set
  | blank blank => exact ⟨_, reaches, blank⟩
  | @item q v mem _ ih =>
    exact ih (.item reaches mem) fun null => direct.items q reaches (null ▸ mem)
  | entry last _ ih => exact ih (.entry reaches last.mem) (direct.values _ reaches _ last.mem)
  | nested kind last _ ih =>
    have mem := last.mem
    exact ih (.nested reaches kind (mem_of_mem_present mem)) (ne_null_of_mem_present mem)

/-- A null in the properties of a stack is that of one of its parameters. -/
theorem exists_parameter_of_hasNull (plain : ∀ name, ¬ (plan.cross name).HasNull) {name : String}
    {e : Entity} {c : Child} {d : Datum} (h : stackForm s plan name e c = .ok d) :
    ∃ given properties, childParameters s c = .ok given ∧ d.get? "Properties" = some properties ∧
      (properties.HasNull → ∃ entry ∈ given, ShowsNull s entry.2) := by
  obtain ⟨given, parameters, later⟩ := bind_eq_ok_iff.mp h
  obtain ⟨rendered, formed, eq⟩ := bind_eq_ok_iff.mp later
  cases eq
  refine ⟨given, _, parameters, rfl, fun has => ?_⟩
  obtain ⟨_, property, has⟩ := Datum.hasNull_table_iff.mp has
  rcases property with _ | ⟨_, _ | ⟨_, ⟨⟩⟩⟩
  · exact absurd has (Datum.not_hasNull_single _ _)
  · obtain ⟨row, mem, has⟩ := Datum.hasNull_table_iff.mp has
    have kept : row ∈ Entries.ofList (baseReference :: rendered) := mem
    obtain ⟨setting, ⟨before, after, split, -⟩, -, same⟩ := Entries.exists_last_of_mem kept
    have among : setting ∈ baseReference :: rendered :=
      split ▸ List.mem_append_right before List.mem_cons_self
    rw [← same] at has
    rcases List.mem_cons.mp among with rfl | among
    · exact absurd has (Datum.not_hasNull_single _ _)
    · obtain ⟨entry, inside, made⟩ := exists_of_mem_mapM formed among
      obtain ⟨_, -, later⟩ := bind_eq_ok_iff.mp made
      obtain ⟨value, form, eq⟩ := bind_eq_ok_iff.mp later
      cases eq
      exact ⟨entry, inside, (hasNull_renderTo_iff plain form).mp has⟩

/-- What nulls the resources of a template have. The unset properties of a plain resource are left
out with their keys, and a null stands in its properties exactly where a set one shows it; if no
container within reach holds an unset value, it is that of a property entity with nothing set. A null
in the properties of a stack is that of one of its parameters. A property entity leaves out what is
unset as well, wherever it is inlined, and has the form of nothing exactly when nothing is set. -/
theorem nulls_of_properties {draft : Draft} (names : (n.map (·.1)).Nodup)
    (plain : ∀ name, ¬ (plan.cross name).HasNull) (h : drafted s plan n = .ok draft) :
    (∀ name id, (name, .entity id) ∈ n → stands s (name, .entity id) = true →
      (s.entity id).child = none → ∃ d props, (.text name, d) ∈ draft.resources ∧
        d.get? "Properties" = (if props.isEmpty then none else some (.table props)) ∧
        Rows s (form s plan true) (s.props id) props ∧
        ((Datum.table props).HasNull ↔
          ∃ entry, Last s (present (s.props id)) entry ∧ ShowsNull s entry.2) ∧
        (s.NullsDirect id → (Datum.table props).HasNull →
          ∃ e, s.Reaches id (.entity e) ∧ s.IsBlank e)) ∧
    (∀ name id c, (name, .entity id) ∈ n → stands s (name, .entity id) = true →
      (s.entity id).child = some c → ∃ d given properties, (.text name, d) ∈ draft.resources ∧
        childParameters s c = .ok given ∧ d.get? "Properties" = some properties ∧
        (properties.HasNull → ∃ entry ∈ given, ShowsNull s entry.2)) ∧
    ∀ e, (s.entity e).kind = .property → ∀ depth d,
      s.renderTo (visitor s plan.names true plan.cross) (depth + 1) (.entity e) = .ok d →
      s.IsBlank e ∧ d = .null ∨ ¬ s.IsBlank e ∧ ∃ props, d = .table props ∧
        Rows s (s.renderTo (visitor s plan.names true plan.cross) depth) (s.props e) props := by
  refine ⟨fun name id mem standing own => ?_, fun name id c mem standing child => ?_,
    fun e kind depth d rendered => ?_⟩
  · obtain ⟨d, inside, drawn⟩ := exists_drawn names h mem standing
    cases drawn with
    | stack child _ => cases own.symm.trans child
    | plain _ form =>
      obtain ⟨settings, rendered, properties⟩ := properties_resourceForm form
      have nulls := hasNull_ofList_iff rendered fun v d value => hasNull_renderTo_iff plain value
      refine ⟨d, _, inside, properties, rows_ofList (rows_of_renderEntries rendered), nulls,
        fun direct has => ?_⟩
      obtain ⟨entry, last, shows⟩ := nulls.mp has
      exact exists_blank_of_showsNull direct shows (.prop (mem_of_mem_present last.mem))
        (ne_null_of_mem_present last.mem)
  · obtain ⟨d, inside, drawn⟩ := exists_drawn names h mem standing
    cases drawn with
    | plain own _ => cases child.symm.trans own
    | stack own form =>
      cases child.symm.trans own
      obtain ⟨given, properties, parameters, found, nulls⟩ := exists_parameter_of_hasNull plain form
      exact ⟨d, given, properties, inside, parameters, found, nulls⟩
  · obtain ⟨settings, made, ⟨blank, none⟩ | ⟨filled, table⟩⟩ := form_of_property kind rendered
    · exact .inl ⟨blank, none⟩
    · exact .inr ⟨filled, _, table, rows_ofList (rows_of_renderEntries made)⟩

/-- A group without a name, with a rule that stands in a list as well. -/
def ruleGroup (cidr : Option String) : Store :=
  let s := (Store.initial.newEntity .property "Rule" "template" "Net::Rule"
    [(.text "cidr", cidr.elim .null .text), (.text "note", .null)] [] none).2
  let s := (s.newSequence .list [.entity 0]).2
  (s.newEntity .resource "Group" "template" "Net::Group"
    [(.text "name", .null), (.text "rule", .entity 0), (.text "rules", .sequence 0)] [] none).2

theorem reaches_ruleGroup {cidr : Option String} {v : Value}
    (reaches : (ruleGroup cidr).Reaches 1 v) :
    v = .null ∨ v = .entity 0 ∨ v = .sequence 0 ∨ ∃ t, v = .text t := by
  let Known (v : Value) : Prop := v = .null ∨ v = .entity 0 ∨ v = .sequence 0 ∨ ∃ t, v = .text t
  show Known v
  refine reaches.mem_of_closed (fun q mem => ?_) fun w known q mem => ?_
  · rcases mem with _ | ⟨_, _ | ⟨_, _ | ⟨_, ⟨⟩⟩⟩⟩
    · exact .inl rfl
    · exact .inr (.inl rfl)
    · exact .inr (.inr (.inl rfl))
  · rcases known with rfl | rfl | rfl | ⟨t, rfl⟩
    · cases mem
    · rcases mem with _ | ⟨_, _ | ⟨_, ⟨⟩⟩⟩
      · cases cidr with
        | none => exact .inl rfl
        | some cidr => exact .inr (.inr (.inr ⟨cidr, rfl⟩))
      · exact .inl rfl
    · rcases mem with _ | ⟨_, ⟨⟩⟩
      exact .inr (.inl rfl)
    · cases mem

theorem nullsDirect_ruleGroup (cidr : Option String) : (ruleGroup cidr).NullsDirect 1 where
  items q reaches null := by
    rcases reaches_ruleGroup reaches with never | never | list | ⟨_, never⟩
    · cases never
    · cases never
    · cases list
      rcases null with _ | ⟨_, ⟨⟩⟩
    · cases never
  values m reaches := by
    rcases reaches_ruleGroup reaches with never | never | never | ⟨_, never⟩ <;> cases never

theorem not_hasNull_markOutput (name : String) : ¬ (markOutput name).HasNull :=
  Datum.not_hasNull_single _ _

/-- Where the rule is set, its unset note and the unset name of the group leave no null. -/
theorem nulls_of_properties_group :
    let s := ruleGroup (some "10.0.0.0/8")
    ∃ draft d props, drafted s ⟨["group"], markOutput, []⟩ [("group", .entity 1)] = .ok draft ∧
      (.text "group", d) ∈ draft.resources ∧
      d.get? "Properties" = (if props.isEmpty then none else some (.table props)) ∧
      ¬ (Datum.table props).HasNull := by
  intro s
  obtain ⟨draft, drawn⟩ : ∃ draft,
      drafted s ⟨["group"], markOutput, []⟩ [("group", .entity 1)] = .ok draft := ⟨_, rfl⟩
  obtain ⟨resources, -, -⟩ := nulls_of_properties (by decide) not_hasNull_markOutput drawn
  obtain ⟨d, props, mem, properties, -, -, nulls⟩ := resources "group" 1 (.head _) rfl rfl
  refine ⟨draft, d, props, drawn, mem, properties, fun has => ?_⟩
  obtain ⟨e, reaches, blank⟩ := nulls (nullsDirect_ruleGroup _) has
  rcases reaches_ruleGroup reaches with never | rule | never | ⟨_, never⟩
  · cases never
  · cases rule
    cases blank.unset
  · cases never
  · cases never

/-- A rule with nothing set leaves a null under its key and one in the list. -/
theorem blank_rule_is_null :
    (ruleGroup none).NullsDirect 1 ∧
    ∃ draft d, drafted (ruleGroup none) ⟨["group"], markOutput, []⟩ [("group", .entity 1)] =
        .ok draft ∧ (.text "group", d) ∈ draft.resources ∧
      d.get? "Properties" =
        some (.table [(.text "Rule", .null), (.text "Rules", .list [.null])]) :=
  ⟨nullsDirect_ruleGroup none, _, _, rfl, .head _, rfl⟩

end Template
end Infra
