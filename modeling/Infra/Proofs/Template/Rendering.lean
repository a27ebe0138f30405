import Infra.Proofs.Entries
import Infra.Proofs.Store.Reachable
import Infra.Proofs.Template.Reference
import Infra.Template.Serializer

/-!
# What rendered values refer to

* `Store.PlainProps` : what the properties of an entity lead to has plain keys and intrinsic values;
* `Store.NamedWithin` : a name that a reference or a resource within reach of an entity has;
* `Template.Shows` : the names that the form of a value refers to, told from the value alone;
  `Template.Shows.exists_named` : they are names of references and resources that it leads to;
* `Template.mem_references_renderTo` : the form of a value refers to exactly these names;
  `Template.mem_references_renderProps` : and so does that of the properties.
-/

namespace Infra

/-- The keys of the properties of an entity, and of the mappings and property entities that they
lead to. -/
def Store.ReachesKey (s : Store) (id : Nat) (key : Value) : Prop :=
  (∃ v, (key, v) ∈ s.props id) ∨
    (∃ m v, s.Reaches id (.mapping m) ∧ (key, v) ∈ s.mapping m) ∨
    ∃ e v, s.Reaches id (.entity e) ∧ (s.entity e).kind = .property ∧ (key, v) ∈ s.props e

/-- The key is a text, and its rendered spelling does not make a table a reference. -/
def Template.IsPlainText (key : Value) : Prop :=
  ∃ k, key = .text k ∧ Text.pascalCase k ≠ "Ref" ∧ Text.pascalCase k ≠ "Fn::GetAtt"

/-- The properties of an entity lead to plain keys, and to no intrinsic values but interpolated
texts and standing pseudo-parameters. -/
structure Store.PlainProps (s : Store) (id : Nat) : Prop where
  keys : ∀ key, s.ReachesKey id key → Template.IsPlainText key
  intrinsics : ∀ i, s.Reaches id (.intrinsic i) →
    (∃ parts values, s.intrinsic i = .interpolation parts values) ∨
      ∃ ref ∈ standingPseudos.map (·.2), s.intrinsic i = .pseudo ref

/-- A value leads to plain keys, and to no intrinsic values but such. -/
structure Store.PlainFrom (s : Store) (v : Value) : Prop where
  keys : ∀ w q key, s.Within v w → q ∈ s.contents w → q.steps = [.key key] →
    Template.IsPlainText key
  intrinsics : ∀ i, s.Within v (.intrinsic i) →
    (∃ parts values, s.intrinsic i = .interpolation parts values) ∨
      ∃ ref ∈ standingPseudos.map (·.2), s.intrinsic i = .pseudo ref

/-- The entries have plain keys and values. -/
def Store.PlainEntries (s : Store) (entries : List (Value × Value)) : Prop :=
  ∀ entry ∈ entries, Template.IsPlainText entry.1 ∧ s.PlainFrom entry.2

/-- A reference or a resource within reach of the entity has the name. -/
def Store.NamedWithin (s : Store) (id : Nat) (name : String) : Prop :=
  (∃ ref, s.Reaches id (.reference ref) ∧ (s.reference ref).name = some name) ∨
    ∃ e, s.Reaches id (.entity e) ∧ (s.entity e).kind = .resource ∧ (s.entity e).name = some name

variable {s : Store}

/-! ## Plain values -/

namespace Store

theorem PlainFrom.of_content {v : Value} {q : Place} (plain : s.PlainFrom v)
    (mem : q ∈ s.contents v) : s.PlainFrom q.value where
  keys w p key within := plain.keys w p key (within.of_content mem)
  intrinsics i within := plain.intrinsics i (within.of_content mem)

theorem PlainFrom.of_item {q : Nat} {v : Value} (plain : s.PlainFrom (.sequence q))
    (mem : v ∈ (s.sequence q).items) : s.PlainFrom v := by
  obtain ⟨p, onStep, rfl⟩ := exists_mem_itemSteps mem
  exact plain.of_content onStep

theorem PlainFrom.plainEntries {v : Value} {entries : List (Value × Value)} (plain : s.PlainFrom v)
    (contents : s.contents v = entrySteps entries) : s.PlainEntries entries := by
  intro entry mem
  have onStep : ⟨[.key entry.1], entry.2⟩ ∈ s.contents v := contents ▸ List.mem_map_of_mem mem
  exact ⟨plain.keys v _ entry.1 .self onStep rfl, plain.of_content onStep⟩

theorem PlainFrom.of_leaf {v : Value} (leaf : s.contents v = []) (other : ∀ i, v ≠ .intrinsic i) :
    s.PlainFrom v where
  keys w q key within content _ := by
    rw [within.eq_of_leaf leaf, leaf] at content
    cases content
  intrinsics i within := absurd (within.eq_of_leaf leaf).symm (other i)

theorem PlainProps.plainEntries {id : Nat} (plain : s.PlainProps id) :
    s.PlainEntries (s.props id) := by
  intro entry mem
  have reaches : s.Reaches id entry.2 := .prop mem
  refine ⟨plain.keys _ (.inl ⟨entry.2, mem⟩), fun w q key within content step => ?_,
    fun i within => plain.intrinsics i (reaches.within within)⟩
  have met := reaches.within within
  match w with
  | .mapping m =>
    obtain ⟨inner, inside, rfl⟩ := List.mem_map.mp content
    cases step
    exact plain.keys _ (.inr (.inl ⟨m, inner.2, met, inside⟩))
  | .entity e =>
    cases kind : (s.entity e).kind with
    | property =>
      rw [contents_property kind] at content
      obtain ⟨inner, inside, rfl⟩ := List.mem_map.mp content
      cases step
      exact plain.keys _ (.inr (.inr ⟨e, inner.2, met, kind, inside⟩))
    | resource =>
      rw [contents_resource kind] at content
      cases content
  | .sequence _ =>
    obtain ⟨item, -, rfl⟩ := List.mem_map.mp content
    cases step
  | .null | .bool _ | .int _ | .float _ | .text _ | .bytes _ | .path _ | .moment _ | .module
  | .function | .reference _ | .output _ | .intrinsic _ | .constructor _ | .definition _
  | .composite _ => cases content

end Store

namespace Template

open Store

/-! ## Leaves -/

theorem references_markOutput (name : String) : references (markOutput name) = [] := rfl

theorem mem_references_of_nothing {d : Datum} {t : String} {P : Prop} (nothing : references d = [])
    (never : ¬ P) : t ∈ references d ↔ P := by
  rw [nothing]
  exact iff_of_false List.not_mem_nil never

theorem references_getAtt (name attr : String) :
    references (.record [("Fn::GetAtt", .texts [name, attr])]) = [name] := rfl

theorem mem_references_ref {name t : String} :
    t ∈ references (.record [("Ref", .text name)]) ↔
      t = name ∧ name.startsWith pseudoMark = false := by
  have target : references (.record [("Ref", .text name)]) =
      (if name.startsWith pseudoMark then none else some name).toList ++ [] ++ [] := rfl
  rw [target]
  split
  · next marked => simp [marked]
  · next unmarked => simp [unmarked]

theorem references_pseudo {ref : String} (h : ref ∈ Store.standingPseudos.map (·.2)) :
    references (.record [("Ref", .text ref)]) = [] := by
  have target : references (.record [("Ref", .text ref)]) =
      (if ref.startsWith pseudoMark then none else some ref).toList ++ [] ++ [] := rfl
  have marked : ∀ ref ∈ Store.standingPseudos.map (·.2), ref.startsWith pseudoMark = true := by
    decide +kernel
  rw [target, if_pos (marked ref h)]
  rfl

/-! ## What a value shows -/

/-- The entries whose keys are texts, under the spelling of their keys. -/
def spelled (spell : String → String) (entries : List (Value × Value)) : List (String × Value) :=
  entries.filterMap fun entry => entry.1.text?.map fun k => (spell k, entry.2)

/-- The entries under the spelling of their keys. Of those with one spelling the last is there, in
the place of the first. -/
def respelled (spell : String → String) (entries : List (Value × Value)) : List (String × Value) :=
  Named.ofList (spelled spell entries)

/-- The properties that are set. -/
def present (entries : List (Value × Value)) : List (Value × Value) :=
  entries.filter fun entry => entry.2 != .null

/-- The form of a value in the template refers to a name: the value is a reference to an entity of
the template or a resource, and is called so, or an entry or item that it keeps shows the name. -/
inductive Shows (s : Store) (names : List String) : Value → String → Prop
  | reference {ref : Nat} {name : String} : (s.reference ref).name = some name → name ∈ names →
    Shows s names (.reference ref) name
  | resource {e : Nat} {name : String} : (s.entity e).kind = .resource →
    (s.entity e).name = some name → name.startsWith pseudoMark = false →
    Shows s names (.entity e) name
  | item {q : Nat} {v : Value} {t : String} : v ∈ (s.sequence q).items → Shows s names v t →
    Shows s names (.sequence q) t
  | entry {m : Nat} {entry : String × Value} {t : String} :
    entry ∈ respelled Text.pascalCase (s.mapping m) → Shows s names entry.2 t →
    Shows s names (.mapping m) t
  | nested {e : Nat} {entry : String × Value} {t : String} : (s.entity e).kind = .property →
    entry ∈ respelled Text.pascalCase (present (s.props e)) → Shows s names entry.2 t →
    Shows s names (.entity e) t

theorem mem_spelled {spell : String → String} {entries : List (Value × Value)}
    {entry : String × Value} :
    entry ∈ spelled spell entries ↔ ∃ k, entry.1 = spell k ∧ (.text k, entry.2) ∈ entries := by
  constructor
  · intro mem
    obtain ⟨⟨key, v⟩, inside, eq⟩ := List.mem_filterMap.mp mem
    cases key with
    | text k =>
      obtain rfl : (spell k, v) = entry := Option.some.inj eq
      exact ⟨k, rfl, inside⟩
    | _ => cases eq
  · rintro ⟨k, eq, inside⟩
    exact List.mem_filterMap.mpr ⟨_, inside, congrArg (fun name => some (name, entry.2)) eq.symm⟩

theorem mem_names_spelled_id {entries : List (Value × Value)} {k : String} :
    k ∈ (spelled id entries).map (·.1) ↔ ∃ v, (.text k, v) ∈ entries := by
  constructor
  · intro known
    obtain ⟨⟨_, v⟩, inside, rfl⟩ := List.mem_map.mp known
    obtain ⟨_, rfl, mem⟩ := mem_spelled.mp inside
    exact ⟨v, mem⟩
  · rintro ⟨v, inside⟩
    exact List.mem_map.mpr ⟨(k, v), mem_spelled.mpr ⟨k, rfl, inside⟩, rfl⟩

theorem mem_of_mem_respelled {spell : String → String} {entries : List (Value × Value)}
    {entry : String × Value} (mem : entry ∈ respelled spell entries) :
    ∃ k, entry.1 = spell k ∧ (.text k, entry.2) ∈ entries :=
  mem_spelled.mp (Named.mem_of_mem_ofList mem)

theorem mem_of_mem_present {entries : List (Value × Value)} {entry : Value × Value}
    (mem : entry ∈ present entries) : entry ∈ entries := (List.mem_filter.mp mem).1

/-- A shown name is that of a reference to an entity of the template, or of a resource. -/
theorem Shows.exists_named {names : List String} {v : Value} {t : String} (h : Shows s names v t) :
    (∃ ref, s.Within v (.reference ref) ∧ (s.reference ref).name = some t ∧ t ∈ names) ∨
      ∃ e, s.Within v (.entity e) ∧ (s.entity e).kind = .resource ∧ (s.entity e).name = some t := by
  induction h with
  | reference named known => exact .inl ⟨_, .self, named, known⟩
  | resource kind named _ => exact .inr ⟨_, .self, kind, named⟩
  | item mem _ ih =>
    obtain ⟨p, onStep, rfl⟩ := exists_mem_itemSteps mem
    exact ih.imp (fun ⟨ref, within, rest⟩ => ⟨ref, within.of_content onStep, rest⟩)
      fun ⟨e, within, rest⟩ => ⟨e, within.of_content onStep, rest⟩
  | entry mem _ ih =>
    obtain ⟨_, -, inside⟩ := mem_of_mem_respelled mem
    obtain ⟨p, onStep, eq⟩ := exists_mem_entrySteps inside
    rw [← eq] at ih
    exact ih.imp (fun ⟨ref, within, rest⟩ => ⟨ref, within.of_content onStep, rest⟩)
      fun ⟨e, within, rest⟩ => ⟨e, within.of_content onStep, rest⟩
  | nested kind mem _ ih =>
    obtain ⟨_, -, inside⟩ := mem_of_mem_respelled mem
    obtain ⟨p, onStep, eq⟩ := exists_mem_entrySteps (mem_of_mem_present inside)
    rw [← eq] at ih
    rw [← contents_property kind] at onStep
    exact ih.imp (fun ⟨ref, within, rest⟩ => ⟨ref, within.of_content onStep, rest⟩)
      fun ⟨e, within, rest⟩ => ⟨e, within.of_content onStep, rest⟩

section Inversion

variable {names : List String} {t : String}

theorem shows_reference_iff {ref : Nat} :
    Shows s names (.reference ref) t ↔ (s.reference ref).name = some t ∧ t ∈ names := by
  constructor
  · intro shows
    cases shows with
    | reference named known => exact ⟨named, known⟩
  · exact fun ⟨named, known⟩ => .reference named known

theorem shows_resource_iff {e : Nat} (kind : (s.entity e).kind = .resource) :
    Shows s names (.entity e) t ↔
      (s.entity e).name = some t ∧ t.startsWith pseudoMark = false := by
  constructor
  · intro shows
    cases shows with
    | resource _ named unmarked => exact ⟨named, unmarked⟩
    | nested property _ _ => cases kind.symm.trans property
  · exact fun ⟨named, unmarked⟩ => .resource kind named unmarked

theorem shows_property_iff {e : Nat} (kind : (s.entity e).kind = .property) :
    Shows s names (.entity e) t ↔
      ∃ entry ∈ respelled Text.pascalCase (present (s.props e)), Shows s names entry.2 t := by
  constructor
  · intro shows
    cases shows with
    | resource resource _ _ => cases kind.symm.trans resource
    | nested _ mem shows => exact ⟨_, mem, shows⟩
  · exact fun ⟨_, mem, shows⟩ => .nested kind mem shows

theorem shows_sequence_iff {q : Nat} :
    Shows s names (.sequence q) t ↔ ∃ item ∈ (s.sequence q).items, Shows s names item t := by
  constructor
  · intro shows
    cases shows with
    | item mem shows => exact ⟨_, mem, shows⟩
  · exact fun ⟨_, mem, shows⟩ => .item mem shows

theorem shows_mapping_iff {m : Nat} :
    Shows s names (.mapping m) t ↔
      ∃ entry ∈ respelled Text.pascalCase (s.mapping m), Shows s names entry.2 t := by
  constructor
  · intro shows
    cases shows with
    | entry mem shows => exact ⟨_, mem, shows⟩
  · exact fun ⟨_, mem, shows⟩ => .entry mem shows

end Inversion

/-! ## Tables -/

/-- Entries have no form only for want of one of a key or a value among them. -/
theorem renderEntries_eq_error {key : Value → Except Fault Value}
    {render : Value → Except Fault Datum} {entries : List (Value × Value)} {fault : Fault}
    (h : renderEntries key render entries = .error fault) :
    ∃ entry ∈ entries, key entry.1 = .error fault ∨ render entry.2 = .error fault := by
  obtain ⟨entry, mem, failed⟩ := exists_of_mapM_eq_error h
  refine ⟨entry, mem, ?_⟩
  rcases bind_eq_error_iff.mp failed with own | ⟨_, -, later⟩
  · exact .inl own
  · rcases bind_eq_error_iff.mp later with value | ⟨_, -, never⟩
    · exact .inr value
    · cases never

/-- Entries under texts are rendered to entries under the spelling of these. -/
theorem alike_renderEntries {key : Value → Except Fault Value} {spell : String → String}
    (spells : ∀ k, key (.text k) = .ok (.text (spell k))) {render : Value → Except Fault Datum}
    {entries : List (Value × Value)} {settings : List (Value × Datum)}
    (texts : ∀ entry ∈ entries, ∃ k, entry.1 = .text k)
    (h : renderEntries key render entries = .ok settings) :
    ∃ named, settings = Entries.ofNamed named ∧
      List.Forall₂ (Named.Alike fun v d => render v = .ok d) (spelled spell entries) named := by
  unfold renderEntries at h
  rw [mapM_eq_ok_iff] at h
  induction h with
  | nil => exact ⟨[], rfl, .nil⟩
  | @cons entry setting _ _ first _ ih =>
    obtain ⟨here, later⟩ := List.forall_mem_cons.mp texts
    obtain ⟨named, rfl, alike⟩ := ih later
    obtain ⟨_, v⟩ := entry
    obtain ⟨k, rfl : _ = Value.text k⟩ := here
    obtain ⟨k', spelling, value⟩ := bind_eq_ok_iff.mp first
    obtain ⟨d, made, eq⟩ := bind_eq_ok_iff.mp value
    rw [spells] at spelling
    cases spelling
    cases eq
    exact ⟨(spell k, d) :: named, rfl, .cons ⟨rfl, made⟩ alike⟩

theorem plainKey_of_alike {spell : String → String} {render : Value → Except Fault Datum}
    {entries : List (Value × Value)} {named : List (String × Datum)}
    (plain : ∀ entry ∈ entries, ∃ k, entry.1 = .text k ∧ IsPlainKey (.text (spell k)))
    (alike : List.Forall₂ (Named.Alike fun v d => render v = .ok d) (spelled spell entries) named) :
    ∀ setting ∈ named, IsPlainKey (.text setting.1) := by
  intro setting mem
  obtain ⟨source, inside, same, -⟩ := exists_left_of_mem alike mem
  obtain ⟨k, eq, given⟩ := mem_spelled.mp inside
  obtain ⟨k', text, plain⟩ := plain _ given
  cases text
  rwa [← same, eq]

/-- A table of settings under plain keys refers to what those that are kept refer to. -/
theorem mem_references_settings {named : List (String × Datum)}
    (plain : ∀ setting ∈ named, IsPlainKey (.text setting.1)) {t : String} :
    t ∈ references (.table (Entries.ofList (Entries.ofNamed named))) ↔
      ∃ setting ∈ Named.ofList named, t ∈ references setting.2 := by
  have keys : ∀ entry ∈ Entries.ofNamed (Named.ofList named), IsPlainKey entry.1 := by
    intro entry mem
    obtain ⟨setting, inside, rfl⟩ := List.mem_map.mp mem
    exact plain setting (Named.mem_of_mem_ofList inside)
  rw [Entries.ofList_ofNamed, references_table keys, mem_referencesOfEntries]
  constructor
  · rintro ⟨_, mem, found⟩
    obtain ⟨setting, inside, rfl⟩ := List.mem_map.mp mem
    exact ⟨setting, inside, found⟩
  · rintro ⟨setting, inside, found⟩
    exact ⟨_, List.mem_map_of_mem inside, found⟩

/-- The table of rendered entries refers to what the entries that are kept refer to. -/
theorem mem_references_ofList {key : Value → Except Fault Value} {spell : String → String}
    (spells : ∀ k, key (.text k) = .ok (.text (spell k))) {render : Value → Except Fault Datum}
    {entries : List (Value × Value)} {settings : List (Value × Datum)}
    (plain : ∀ entry ∈ entries, ∃ k, entry.1 = .text k ∧ IsPlainKey (.text (spell k)))
    (h : renderEntries key render entries = .ok settings) {t : String} {P : Value → Prop}
    (refers : ∀ entry ∈ entries, ∀ d, render entry.2 = .ok d → (t ∈ references d ↔ P entry.2)) :
    t ∈ references (.table (Entries.ofList settings)) ↔
      ∃ entry ∈ respelled spell entries, P entry.2 := by
  obtain ⟨named, rfl, alike⟩ := alike_renderEntries spells
    (fun entry mem => (plain entry mem).imp fun _ h => h.1) h
  have kept := Named.alike_ofList alike
  rw [mem_references_settings (plainKey_of_alike plain alike)]
  constructor
  · rintro ⟨setting, inside, found⟩
    obtain ⟨source, inside_source, -, made⟩ := exists_left_of_mem kept inside
    obtain ⟨k, -, given⟩ := mem_of_mem_respelled inside_source
    exact ⟨source, inside_source, (refers _ given _ made).mp found⟩
  · rintro ⟨source, inside_source, holds⟩
    obtain ⟨setting, inside, -, made⟩ := exists_right_of_mem kept inside_source
    obtain ⟨k, -, given⟩ := mem_of_mem_respelled inside_source
    exact ⟨setting, inside, (refers _ given _ made).mpr holds⟩

/-! ## Values -/

theorem IsPlainText.spelled {key : Value} (plain : IsPlainText key) :
    ∃ k, key = .text k ∧ IsPlainKey (.text (Text.pascalCase k)) := by
  obtain ⟨k, eq, ref, att⟩ := plain
  exact ⟨k, eq, by simpa using ref, by simpa using att⟩

theorem renderedKey_text (k : String) :
    renderedKey s (.text k) = .ok (.text (Text.pascalCase k)) := rfl

/-- Rendered properties refer to what the properties that are kept show. -/
theorem mem_references_renderProps {render : Value → Except Fault Datum}
    {entries : List (Value × Value)} {props : List (Value × Datum)}
    (plain : ∀ entry ∈ entries, IsPlainText entry.1)
    (h : renderProps s render entries = .ok props) {t : String} {P : Value → Prop}
    (refers : ∀ entry ∈ entries, ∀ d, render entry.2 = .ok d → (t ∈ references d ↔ P entry.2)) :
    t ∈ references (.table props) ↔
      ∃ entry ∈ respelled Text.pascalCase (present entries), P entry.2 := by
  obtain ⟨settings, rendered, eq⟩ := bind_eq_ok_iff.mp h
  cases eq
  exact mem_references_ofList renderedKey_text
    (fun entry mem => (plain entry (mem_of_mem_present mem)).spelled) rendered
    fun entry mem => refers entry (mem_of_mem_present mem)

/-- The form of a reference refers to its name, if this is a name of the template. -/
theorem mem_references_renderTo_reference {names : List String} {depth ref : Nat} {d : Datum}
    (h : s.renderTo (visitor s names true markOutput) (depth + 1) (.reference ref) = .ok d)
    {t : String} : t ∈ references d ↔ (s.reference ref).name = some t ∧ t ∈ names := by
  simp only [Store.renderTo] at h
  split at h
  · next name named =>
    cases h
    rw [named, Option.some_inj]
    simp only [visitor]
    split
    · next known =>
      have known : name ∈ names := by simpa using known
      rw [references_getAtt, List.mem_singleton]
      exact ⟨fun eq => ⟨eq.symm, eq ▸ known⟩, fun shown => shown.1.symm⟩
    · next unknown =>
      refine mem_references_of_nothing (references_markOutput _) fun ⟨eq, known⟩ => ?_
      exact unknown (by simpa [eq] using known)
  · cases h

/-- An interpolated text and a standing pseudo-parameter refer to nothing. -/
theorem references_of_intrinsicForm {i : Nat} {d : Datum} (plain : s.PlainFrom (.intrinsic i))
    (h : s.intrinsicForm i = .ok d) : references d = [] := by
  unfold Store.intrinsicForm at h
  rcases plain.intrinsics i .self with ⟨parts, values, form⟩ | ⟨ref, standing, form⟩
  · rw [form] at h
    obtain ⟨text, -, eq⟩ := bind_eq_ok_iff.mp h
    cases eq
    rfl
  · rw [form] at h
    cases h
    exact references_pseudo standing

/-- The form of a value refers to the names that the value shows. -/
theorem mem_references_renderTo {names : List String} {depth : Nat} {v : Value} {d : Datum}
    (plain : s.PlainFrom v) (h : s.renderTo (visitor s names true markOutput) depth v = .ok d)
    {t : String} : t ∈ references d ↔ Shows s names v t := by
  induction depth generalizing v d with
  | zero => cases h
  | succ depth ih =>
    cases v with
    | reference ref => exact (mem_references_renderTo_reference h).trans shows_reference_iff.symm
    | intrinsic i =>
      exact mem_references_of_nothing (references_of_intrinsicForm plain h) (by rintro ⟨⟩)
    | output o =>
      cases h
      exact mem_references_of_nothing rfl (by rintro ⟨⟩)
    | entity e =>
      cases kind : (s.entity e).kind with
      | resource =>
        rw [shows_resource_iff kind]
        cases named : (s.entity e).name with
        | none =>
          simp only [Store.renderTo, kind, named] at h
          cases h
        | some name =>
          simp only [Store.renderTo, kind, named] at h
          cases h
          refine mem_references_ref.trans ?_
          rw [Option.some_inj, eq_comm (a := t)]
          exact and_congr_right fun eq => by rw [eq]
      | property =>
        have entries : s.PlainEntries (s.props e) := plain.plainEntries (contents_property kind)
        simp only [Store.renderTo, kind] at h
        obtain ⟨props, rendered, eq⟩ := bind_eq_ok_iff.mp h
        -- a property entity without settings has the form of nothing, which refers to nothing too
        have table : t ∈ references d ↔ t ∈ references (.table props) := by
          cases eq
          split
          · next empty =>
            rw [List.isEmpty_iff.mp empty]
            exact Iff.rfl
          · rfl
        rw [table, shows_property_iff kind]
        exact mem_references_renderProps (P := (Shows s names · t))
          (fun entry mem => (entries entry mem).1) rendered
          fun entry mem _ value => ih (entries entry mem).2 value
    | sequence q =>
      obtain ⟨items, rendered, rfl⟩ := map_eq_ok_iff.mp h
      rw [references, mem_referencesOfItems, shows_sequence_iff]
      constructor
      · rintro ⟨d, inside, refers⟩
        obtain ⟨item, mem, value⟩ := exists_of_mem_mapM rendered inside
        exact ⟨item, mem, (ih (plain.of_item mem) value).mp refers⟩
      · rintro ⟨item, mem, shows⟩
        obtain ⟨d, inside, value⟩ := exists_right_of_mem (mapM_eq_ok_iff.mp rendered) mem
        exact ⟨d, inside, (ih (plain.of_item mem) value).mpr shows⟩
    | mapping m =>
      have entries : s.PlainEntries (s.mapping m) := plain.plainEntries rfl
      obtain ⟨settings, rendered, eq⟩ := bind_eq_ok_iff.mp h
      cases eq
      rw [shows_mapping_iff]
      exact mem_references_ofList (P := (Shows s names · t)) renderedKey_text
        (fun entry mem => (entries entry mem).1.spelled) rendered
        fun entry mem _ value => ih (entries entry mem).2 value
    | composite c => cases h
    | null | bool _ | int _ | float _ | text _ | bytes _ | path _ | moment _ | module | function
    | constructor _ | definition _ =>
      cases h
      exact mem_references_of_nothing rfl (by rintro ⟨⟩)

/-- The form of plain properties refers to the names that those which are kept show. -/
theorem mem_references_props {plan : Plan} (cross : plan.cross = markOutput)
    {entries : List (Value × Value)} (plain : s.PlainEntries entries)
    {props : List (Value × Datum)}
    (h : renderProps s (form s plan true) entries = .ok props) {t : String} :
    t ∈ references (.table props) ↔
      ∃ entry ∈ respelled Text.pascalCase (present entries), Shows s plan.names entry.2 t := by
  refine mem_references_renderProps (P := (Shows s plan.names · t))
    (fun entry mem => (plain entry mem).1) h fun entry mem d value => ?_
  rw [form, cross] at value
  exact mem_references_renderTo (plain entry mem).2 value

end Template
end Infra
