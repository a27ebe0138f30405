import Infra.Proofs.Datum
import Infra.Proofs.Template.Rendering
import Mathlib.Data.List.Perm.Subperm
import Mathlib.Logic.Relation
import Mathlib.Order.Nat

/-!
# Which values have a form

The rendering of a value has no form for some values that it meets, and only for want of what these
miss: a name, or the members of a composite in their place. A value that does not contain itself is
rendered otherwise, to a tree that holds no object of the store.

* `Store.Acyclic` : nothing that a value leads to contains itself; `Store.Around` : the values
  around another one are then different, so that no rendering goes too deep;
* `Store.NoText`, `Store.NoForm` : values without a text of their own, or without a form;
* `Template.form_fails_iff` : a value has a form unless it leads to one without a form.
-/

namespace Infra

/-- The fault is a failure of the serializer. -/
def Fault.IsSerialization (fault : Fault) : Prop :=
  ∃ message, fault = .failed (.serialization message)

/-! ## Values inside themselves -/

namespace Store

variable {s : Store} {v w : Value}

/-- The value contains the other one: its contents, and what an interpolated text shows. -/
inductive Part (s : Store) : Value → Value → Prop
  | content {v : Value} {q : Place} : q ∈ s.contents v → Part s v q.value
  | shown {i : Nat} {parts : List String} {values : List Value} {w : Value} :
    s.intrinsic i = .interpolation parts values → w ∈ values.take parts.length →
      Part s (.intrinsic i) w

/-- Nothing that the value leads to contains itself. -/
def Acyclic (s : Store) (v : Value) : Prop :=
  ∀ w, Relation.ReflTransGen s.Part v w → ¬ Relation.TransGen s.Part w w

theorem Acyclic.part (acyclic : s.Acyclic v) (part : s.Part v w) : s.Acyclic w :=
  fun x leads => acyclic x (.head part leads)

/-- The values `around` another one contain it, and are different ones of `all`. -/
structure Around (s : Store) (all around : List Value) (v : Value) : Prop where
  nodup : around.Nodup
  known : ∀ w ∈ around, w ∈ all
  contain : ∀ w ∈ around, Relation.TransGen s.Part w v

namespace Around

variable {all around : List Value}

theorem nil (s : Store) (all : List Value) (v : Value) : s.Around all [] v := ⟨.nil, nofun, nofun⟩

theorem length_le (inside : s.Around all around v) : around.length ≤ all.length :=
  (List.subperm_of_subset inside.nodup inside.known).length_le

theorem enter (inside : s.Around all around v) (acyclic : s.Acyclic v) (mem : v ∈ all)
    (part : s.Part v w) : s.Around all (v :: around) w where
  nodup := List.nodup_cons.mpr ⟨fun again => acyclic v .refl (inside.contain v again), inside.nodup⟩
  known := List.forall_mem_cons.mpr ⟨mem, inside.known⟩
  contain := List.forall_mem_cons.mpr
    ⟨.single part, fun x above => (inside.contain x above).tail part⟩

end Around

/-! ## Interpolated texts -/

/-- The intrinsic values of the store. -/
def intrinsicValues (s : Store) : List Value := (List.range s.intrinsics.size).map .intrinsic

theorem mem_intrinsicValues {i : Nat} {parts : List String} {values : List Value}
    (form : s.intrinsic i = .interpolation parts values) : .intrinsic i ∈ s.intrinsicValues := by
  refine List.mem_map_of_mem (List.mem_range.mpr ?_)
  by_contra outside
  rw [intrinsic, get_eq_default (Nat.le_of_not_lt outside)] at form
  cases form

/-- The value has no text inside an interpolated text: it is a reference without a name or an
entity, or an interpolated text that shows such a value. -/
inductive NoText (s : Store) : Value → Prop
  | reference {ref : Nat} : (s.reference ref).name = none → NoText s (.reference ref)
  | entity {e : Nat} : NoText s (.entity e)
  | interpolation {i : Nat} {parts : List String} {values : List Value} {v : Value} :
    s.intrinsic i = .interpolation parts values → v ∈ values.take parts.length → NoText s v →
      NoText s (.intrinsic i)

/-- A value has no text only if it is one without. -/
theorem noText_of_valueTextTo {style : Interpolation} {depth : Nat} {around : List Value}
    {fault : Fault} (acyclic : s.Acyclic v) (inside : s.Around s.intrinsicValues around v)
    (enough : s.intrinsics.size < around.length + depth)
    (h : s.valueTextTo style depth v = .error fault) : fault.IsSerialization ∧ s.NoText v := by
  induction depth generalizing style v around with
  | zero =>
    have bound := inside.length_le
    rw [intrinsicValues, List.length_map, List.length_range] at bound
    omega
  | succ depth ih =>
    unfold valueTextTo at h
    cases v with
    | reference ref =>
      dsimp only at h
      split at h
      · cases h
      · next none =>
        cases h
        exact ⟨⟨_, rfl⟩, .reference none⟩
    | intrinsic i =>
      dsimp only at h
      split at h
      · cases h
      · next parts values form =>
        rcases bind_eq_error_iff.mp h with failed | ⟨_, -, never⟩
        · obtain ⟨w, mem, failed⟩ := exists_of_mapM_eq_error failed
          have part : s.Part (.intrinsic i) w := .shown form mem
          have deeper := inside.enter acyclic (mem_intrinsicValues form) part
          obtain ⟨failure, noText⟩ := ih (acyclic.part part) deeper
            (by rw [List.length_cons]; omega) failed
          exact ⟨failure, .interpolation form mem noText⟩
        · cases never
    | entity e =>
      cases h
      exact ⟨⟨_, rfl⟩, .entity⟩
    | _ => cases h

theorem NoText.valueTextTo_ne_ok (h : s.NoText v) (style : Interpolation) (depth : Nat)
    (text : String) : s.valueTextTo style depth v ≠ .ok text := by
  induction h generalizing style depth text with
  | reference none =>
    cases depth with
    | zero => nofun
    | succ depth =>
      rw [valueTextTo, none]
      nofun
  | entity =>
    cases depth with
    | zero => nofun
    | succ depth => nofun
  | interpolation form mem _ ih =>
    cases depth with
    | zero => nofun
    | succ depth =>
      rw [valueTextTo, form]
      intro ok
      obtain ⟨texts, shown, -⟩ := bind_eq_ok_iff.mp ok
      obtain ⟨text, -, here⟩ := exists_right_of_mem (mapM_eq_ok_iff.mp shown) mem
      exact ih .template depth text here

theorem noText_of_intrinsicForm {i : Nat} {fault : Fault} (acyclic : s.Acyclic (.intrinsic i))
    (h : s.intrinsicForm i = .error fault) : fault.IsSerialization ∧ s.NoText (.intrinsic i) := by
  unfold intrinsicForm at h
  split at h
  · cases h
  · next parts values form =>
    rcases bind_eq_error_iff.mp h with failed | ⟨_, -, never⟩
    · obtain ⟨w, mem, failed⟩ := exists_of_mapM_eq_error (map_eq_error_iff.mp failed)
      obtain ⟨failure, noText⟩ := noText_of_valueTextTo (acyclic.part (.shown form mem))
        (.nil s _ w) (by rw [List.length_nil]; omega) failed
      exact ⟨failure, .interpolation form mem noText⟩
    · cases never

theorem intrinsicForm_eq_ok {i : Nat} {d : Datum} (h : s.intrinsicForm i = .ok d) :
    (∃ key text, d = .record [(key, .text text)]) ∧ ¬ s.NoText (.intrinsic i) := by
  unfold intrinsicForm at h
  split at h
  · next ref form =>
    cases h
    refine ⟨⟨_, ref, rfl⟩, fun noText => ?_⟩
    cases noText with
    | interpolation other _ _ => cases form.symm.trans other
  · next parts values form =>
    obtain ⟨text, woven, eq⟩ := bind_eq_ok_iff.mp h
    cases eq
    refine ⟨⟨_, text, rfl⟩, fun noText => ?_⟩
    obtain ⟨texts, shown, -⟩ := map_eq_ok_iff.mp woven
    cases noText with
    | interpolation other mem noText =>
      cases form.symm.trans other
      obtain ⟨text, -, here⟩ := exists_right_of_mem (mapM_eq_ok_iff.mp shown) mem
      exact noText.valueTextTo_ne_ok _ _ _ here

/-- The value has no form: it is a reference or a resource without a name, a composite, or an
interpolated text that shows a value without a text. -/
inductive NoForm (s : Store) : Value → Prop
  | reference {ref : Nat} : (s.reference ref).name = none → NoForm s (.reference ref)
  | resource {e : Nat} : (s.entity e).kind = .resource → (s.entity e).name = none →
    NoForm s (.entity e)
  | composite {c : Nat} : NoForm s (.composite c)
  | interpolation {i : Nat} : s.NoText (.intrinsic i) → NoForm s (.intrinsic i)

/-- The keys of the mappings and property entities that the value leads to are texts. -/
def TextKeys (s : Store) (v : Value) : Prop :=
  ∀ w q key, s.Within v w → q ∈ s.contents w → q.steps = [.key key] → ∃ k, key = .text k

theorem TextKeys.of_content {q : Place} (texts : s.TextKeys v) (mem : q ∈ s.contents v) :
    s.TextKeys q.value :=
  fun w p key within => texts w p key (within.of_content mem)

theorem TextKeys.keys {entries : List (Value × Value)} (texts : s.TextKeys v)
    (contents : s.contents v = entrySteps entries) : ∀ entry ∈ entries, ∃ k, entry.1 = .text k := by
  intro entry mem
  have onStep : ⟨[.key entry.1], entry.2⟩ ∈ s.contents v := contents ▸ List.mem_map_of_mem mem
  exact texts v _ entry.1 .self onStep rfl

end Store

/-! ## Trees without objects -/

/-- The value has no identity of its own in a document: it is no container, and no object that a
rendering replaces. -/
def Value.isLeaf : Value → Bool
  | .sequence _ | .mapping _ | .entity _ | .reference _ | .output _ | .intrinsic _ | .composite _ =>
    false
  | _ => true

namespace Template

open Store

variable {s : Store} {plan : Plan} {names : List String} {convert : Bool} {cross : CrossReference}
  {v : Value}

/-! ## Faults -/

theorem exists_spell (s : Store) (names : List String) (convert : Bool) (cross : CrossReference) :
    ∃ spell : String → String, ∀ k,
      (visitor s names convert cross).key (.text k) = .ok (.text (spell k)) := by
  cases convert with
  | false => exact ⟨id, fun _ => rfl⟩
  | true => exact ⟨Text.pascalCase, fun _ => rfl⟩

/-- Entries under texts have no form only for want of one of a value among them. -/
theorem exists_value_of_renderEntries {key : Value → Except Fault Value} {spell : String → String}
    (spells : ∀ k, key (.text k) = .ok (.text (spell k))) {render : Value → Except Fault Datum}
    {entries : List (Value × Value)} (texts : ∀ entry ∈ entries, ∃ k, entry.1 = .text k)
    {fault : Fault} (h : renderEntries key render entries = .error fault) :
    ∃ entry ∈ entries, render entry.2 = .error fault := by
  obtain ⟨entry, mem, own | value⟩ := renderEntries_eq_error h
  · obtain ⟨k, eq⟩ := texts entry mem
    rw [eq, spells] at own
    cases own
  · exact ⟨entry, mem, value⟩

/-- A value has no form because it is one without, or because of one of its contents. -/
theorem noForm_or_of_renderTo {depth : Nat} {fault : Fault} (acyclic : s.Acyclic v)
    (texts : s.TextKeys v)
    (h : s.renderTo (visitor s names convert cross) (depth + 1) v = .error fault) :
    fault.IsSerialization ∧ s.NoForm v ∨ ∃ q ∈ s.contents v,
      s.renderTo (visitor s names convert cross) depth q.value = .error fault := by
  have ofEntry : ∀ {entries : List (Value × Value)} {entry : Value × Value},
      s.contents v = entrySteps entries → entry ∈ entries →
        s.renderTo (visitor s names convert cross) depth entry.2 = .error fault →
          ∃ q ∈ s.contents v,
            s.renderTo (visitor s names convert cross) depth q.value = .error fault := by
    intro entries entry contents mem failed
    exact ⟨⟨[.key entry.1], entry.2⟩, contents ▸ List.mem_map_of_mem mem, failed⟩
  unfold Store.renderTo at h
  cases v with
  | reference ref =>
    dsimp only at h
    split at h
    · cases h
    · next none =>
      cases h
      exact .inl ⟨⟨_, rfl⟩, .reference none⟩
  | intrinsic i =>
    obtain ⟨failure, noText⟩ := noText_of_intrinsicForm acyclic h
    exact .inl ⟨failure, .interpolation noText⟩
  | entity e =>
    cases kind : (s.entity e).kind with
    | resource =>
      cases named : (s.entity e).name with
      | some name =>
        simp only [kind, named] at h
        cases h
      | none =>
        simp only [kind, named] at h
        cases h
        exact .inl ⟨⟨_, rfl⟩, .resource kind named⟩
    | property =>
      simp only [kind] at h
      have keys := texts.keys (contents_property kind)
      rcases bind_eq_error_iff.mp h with failed | ⟨_, -, never⟩
      · rcases bind_eq_error_iff.mp failed with failed | ⟨_, -, never⟩
        · obtain ⟨entry, mem, failed⟩ := exists_value_of_renderEntries renderedKey_text
            (fun entry mem => keys entry (mem_of_mem_present mem)) failed
          exact .inr (ofEntry (contents_property kind) (mem_of_mem_present mem) failed)
        · cases never
      · cases never
  | composite c =>
    cases h
    exact .inl ⟨⟨_, rfl⟩, .composite⟩
  | sequence q =>
    obtain ⟨item, mem, failed⟩ := exists_of_mapM_eq_error (map_eq_error_iff.mp h)
    obtain ⟨p, onStep, rfl⟩ := exists_mem_itemSteps mem
    exact .inr ⟨p, onStep, failed⟩
  | mapping m =>
    have keys := texts.keys (v := .mapping m) rfl
    rcases bind_eq_error_iff.mp h with failed | ⟨_, -, never⟩
    · obtain ⟨spell, spells⟩ := exists_spell s names convert cross
      obtain ⟨entry, mem, failed⟩ := exists_value_of_renderEntries spells keys failed
      exact .inr (ofEntry rfl mem failed)
    · cases never
  | _ => cases h

theorem length_containers (s : Store) : s.containers.length = s.containerCount := by
  simp [containers, containerCount]
  omega

/-- A value that does not contain itself has no form only if it leads to one without, whatever
stands around it. -/
theorem exists_noForm_of_renderTo {depth : Nat} {around : List Value} {fault : Fault}
    (acyclic : s.Acyclic v) (texts : s.TextKeys v) (inside : s.Around s.containers around v)
    (enough : s.containerCount < around.length + depth)
    (h : s.renderTo (visitor s names convert cross) depth v = .error fault) :
    fault.IsSerialization ∧ ∃ w, s.Within v w ∧ s.NoForm w := by
  induction depth generalizing v around with
  | zero =>
    have bound := inside.length_le
    rw [length_containers] at bound
    omega
  | succ depth ih =>
    rcases noForm_or_of_renderTo acyclic texts h with ⟨failure, noForm⟩ | ⟨q, mem, failed⟩
    · exact ⟨failure, v, .self, noForm⟩
    · have part : s.Part v q.value := .content mem
      have known := s.mem_containers_of_contents (List.ne_nil_of_mem mem)
      obtain ⟨failure, w, within, noForm⟩ := ih (acyclic.part part) (texts.of_content mem)
        (inside.enter acyclic known part) (by rw [List.length_cons]; omega) failed
      exact ⟨failure, w, within.of_content mem, noForm⟩

/-! ## Forms -/

theorem renderTo_resource {e depth : Nat} {d : Datum} (kind : (s.entity e).kind = .resource)
    (h : s.renderTo (visitor s names convert cross) (depth + 1) (.entity e) = .ok d) :
    ∃ name, (s.entity e).name = some name ∧ d = .record [("Ref", .text name)] := by
  cases named : (s.entity e).name with
  | none =>
    simp only [Store.renderTo, kind, named] at h
    cases h
  | some name =>
    simp only [Store.renderTo, kind, named] at h
    cases h
    exact ⟨name, rfl, rfl⟩

theorem renderTo_property {e depth : Nat} {d : Datum} (kind : (s.entity e).kind = .property)
    (h : s.renderTo (visitor s names convert cross) (depth + 1) (.entity e) = .ok d) :
    ∃ settings, renderEntries (renderedKey s)
        (s.renderTo (visitor s names convert cross) depth) (present (s.props e)) = .ok settings ∧
      d = if (Entries.ofList settings).isEmpty then .null else .table (Entries.ofList settings) := by
  simp only [Store.renderTo, kind] at h
  obtain ⟨props, made, eq⟩ := bind_eq_ok_iff.mp h
  obtain ⟨settings, rendered, kept⟩ := bind_eq_ok_iff.mp made
  cases kept
  cases eq
  exact ⟨settings, rendered, rfl⟩

theorem noForm_renderTo_ne_ok (h : s.NoForm v) (depth : Nat) (d : Datum) :
    s.renderTo (visitor s names convert cross) depth v ≠ .ok d := by
  cases depth with
  | zero => nofun
  | succ depth =>
    intro ok
    cases h with
    | reference none =>
      rw [Store.renderTo, none] at ok
      cases ok
    | resource kind none =>
      obtain ⟨name, named, -⟩ := renderTo_resource kind ok
      cases none.symm.trans named
    | composite => cases ok
    | interpolation noText => exact (intrinsicForm_eq_ok ok).2 noText

theorem exists_of_renderEntries {key : Value → Except Fault Value}
    {render : Value → Except Fault Datum} {entries : List (Value × Value)}
    {settings : List (Value × Datum)} (h : renderEntries key render entries = .ok settings)
    {entry : Value × Value} (mem : entry ∈ entries) : ∃ d, render entry.2 = .ok d := by
  obtain ⟨_, -, made⟩ := exists_right_of_mem (mapM_eq_ok_iff.mp h) mem
  obtain ⟨_, -, later⟩ := bind_eq_ok_iff.mp made
  obtain ⟨d, value, -⟩ := bind_eq_ok_iff.mp later
  exact ⟨d, value⟩

/-- What a value with a form contains has a form, unless it is an unset property. -/
theorem content_renderTo {depth : Nat} {d : Datum}
    (h : s.renderTo (visitor s names convert cross) (depth + 1) v = .ok d) {q : Place}
    (mem : q ∈ s.contents v) :
    q.value = .null ∨ ∃ d, s.renderTo (visitor s names convert cross) depth q.value = .ok d := by
  cases v with
  | sequence i =>
    obtain ⟨items, rendered, -⟩ := map_eq_ok_iff.mp h
    obtain ⟨d, -, value⟩ :=
      exists_right_of_mem (mapM_eq_ok_iff.mp rendered) (value_of_mem_itemSteps mem)
    exact .inr ⟨d, value⟩
  | mapping m =>
    obtain ⟨settings, rendered, -⟩ := bind_eq_ok_iff.mp h
    obtain ⟨key, inside⟩ := value_of_mem_entrySteps mem
    exact .inr (exists_of_renderEntries rendered inside)
  | entity e =>
    cases kind : (s.entity e).kind with
    | resource =>
      rw [contents_resource kind] at mem
      cases mem
    | property =>
      rw [contents_property kind] at mem
      obtain ⟨key, inside⟩ := value_of_mem_entrySteps mem
      obtain ⟨settings, rendered, -⟩ := renderTo_property kind h
      by_cases unset : q.value = .null
      · exact .inl unset
      · have given : (key, q.value) ∈ (s.props e).filter fun entry => entry.2 != .null :=
          List.mem_filter.mpr ⟨inside, by simpa using unset⟩
        exact .inr (exists_of_renderEntries rendered given)
  | _ => cases mem

theorem not_noForm_of_renderTo {depth : Nat} {d : Datum}
    (h : s.renderTo (visitor s names convert cross) depth v = .ok d) {w : Value}
    (within : s.Within v w) : ¬ s.NoForm w := by
  have formed : w = .null ∨ ∃ depth d,
      s.renderTo (visitor s names convert cross) depth w = .ok d := by
    induction within with
    | self => exact .inr ⟨depth, d, h⟩
    | inside _ mem ih =>
      rcases ih with rfl | ⟨depth, d, formed⟩
      · cases mem
      · cases depth with
        | zero => cases formed
        | succ depth => exact (content_renderTo formed mem).imp_right fun ⟨d, ok⟩ => ⟨depth, d, ok⟩
  intro noForm
  rcases formed with rfl | ⟨depth, d, formed⟩
  · cases noForm
  · exact noForm_renderTo_ne_ok noForm depth d formed

/-- The leaves of the form of a value: those of references to other backends, texts and nothing,
and what the value leads to and needs no rendering. -/
def LeafOf (s : Store) (P : Value → Prop) (v w : Value) : Prop :=
  P w ∨ w = .null ∨ (∃ t, w = .text t) ∨ w.isLeaf = true ∧ s.Within v w

theorem LeafOf.of_content {P : Value → Prop} {q : Place} {w : Value} (mem : q ∈ s.contents v)
    (h : LeafOf s P q.value w) : LeafOf s P v w :=
  h.imp_right (Or.imp_right (Or.imp_right fun ⟨leaf, within⟩ => ⟨leaf, within.of_content mem⟩))

section Entries

variable {P : Value → Prop} {key : Value → Except Fault Value} {spell : String → String}
  {render : Value → Except Fault Datum} {entries : List (Value × Value)}
  {settings : List (Value × Datum)}

/-- Rendered entries under texts are settings under texts, of their forms. -/
theorem exists_named_of_renderEntries (spells : ∀ k, key (.text k) = .ok (.text (spell k)))
    (texts : ∀ entry ∈ entries, ∃ k, entry.1 = .text k)
    (h : renderEntries key render entries = .ok settings)
    (built : ∀ entry ∈ entries, ∀ d, render entry.2 = .ok d → d.BuiltOf P) :
    ∃ named, settings = Entries.ofNamed named ∧ ∀ setting ∈ named, setting.2.BuiltOf P := by
  obtain ⟨named, rfl, alike⟩ := alike_renderEntries spells texts h
  refine ⟨named, rfl, fun setting inside => ?_⟩
  obtain ⟨source, mem, -, made⟩ := exists_left_of_mem alike inside
  obtain ⟨k, -, given⟩ := mem_spelled.mp mem
  exact built _ given _ made

theorem builtOf_table (spells : ∀ k, key (.text k) = .ok (.text (spell k)))
    (texts : ∀ entry ∈ entries, ∃ k, entry.1 = .text k)
    (h : renderEntries key render entries = .ok settings)
    (built : ∀ entry ∈ entries, ∀ d, render entry.2 = .ok d → d.BuiltOf P) :
    (Datum.table (Entries.ofList settings)).BuiltOf P := by
  obtain ⟨named, rfl, each⟩ := exists_named_of_renderEntries spells texts h built
  exact .ofList each

end Entries

theorem builtOf_text {P : Value → Prop} {key text : String} (h : P (.text text)) :
    (Datum.record [(key, .text text)]).BuiltOf P :=
  .record (List.nodup_singleton _) (List.forall_mem_singleton.mpr (.leaf h))

/-- The form of a value under texts is built of leaves. -/
theorem builtOf_renderTo {P : Value → Prop} (plain : ∀ name, (cross name).BuiltOf P)
    {depth : Nat} {d : Datum} (texts : s.TextKeys v)
    (h : s.renderTo (visitor s names convert cross) depth v = .ok d) :
    d.BuiltOf (LeafOf s P v) := by
  have ofText : ∀ {v : Value} {text : String}, LeafOf s P v (.text text) :=
    .inr (.inr (.inl ⟨_, rfl⟩))
  induction depth generalizing v d with
  | zero => cases h
  | succ depth ih =>
    have ofEntries : ∀ {entries : List (Value × Value)}, s.contents v = entrySteps entries →
        ∀ entry ∈ entries, ∀ d, s.renderTo (visitor s names convert cross) depth entry.2 = .ok d →
          d.BuiltOf (LeafOf s P v) := by
      intro entries contents entry mem d value
      have onStep : ⟨[.key entry.1], entry.2⟩ ∈ s.contents v := contents ▸ List.mem_map_of_mem mem
      exact (ih (texts.of_content onStep) value).mono fun w => .of_content onStep
    cases v with
    | reference ref =>
      simp only [Store.renderTo] at h
      split at h
      · next name named =>
        cases h
        simp only [visitor]
        split
        · refine .record (List.nodup_singleton _) (List.forall_mem_singleton.mpr (.list ?_))
          intro item mem
          obtain ⟨text, -, rfl⟩ := List.mem_map.mp mem
          exact .leaf ofText
        · exact (plain _).mono fun _ => .inl
      · cases h
    | intrinsic i =>
      obtain ⟨⟨key, text, rfl⟩, -⟩ := intrinsicForm_eq_ok h
      exact builtOf_text ofText
    | output o =>
      cases h
      exact builtOf_text ofText
    | entity e =>
      cases kind : (s.entity e).kind with
      | resource =>
        obtain ⟨name, -, rfl⟩ := renderTo_resource kind h
        exact builtOf_text ofText
      | property =>
        obtain ⟨settings, rendered, rfl⟩ := renderTo_property kind h
        split
        · exact .leaf (.inr (.inl rfl))
        · have keys := texts.keys (contents_property kind)
          exact builtOf_table renderedKey_text
            (fun entry mem => keys entry (mem_of_mem_present mem)) rendered
            fun entry mem => ofEntries (contents_property kind) entry (mem_of_mem_present mem)
    | composite c => cases h
    | sequence q =>
      obtain ⟨items, rendered, rfl⟩ := map_eq_ok_iff.mp h
      refine .list fun item inside => ?_
      obtain ⟨source, mem, value⟩ := exists_of_mem_mapM rendered inside
      obtain ⟨p, onStep, rfl⟩ := exists_mem_itemSteps mem
      exact (ih (texts.of_content onStep) value).mono fun w => .of_content onStep
    | mapping m =>
      obtain ⟨settings, rendered, eq⟩ := bind_eq_ok_iff.mp h
      cases eq
      obtain ⟨spell, spells⟩ := exists_spell s names convert cross
      exact builtOf_table spells (texts.keys (v := .mapping m) rfl) rendered (ofEntries rfl)
    | null | bool _ | int _ | float _ | text _ | bytes _ | path _ | moment _ | module | function
    | constructor _ | definition _ =>
      cases h
      exact .leaf (.inr (.inr (.inr ⟨rfl, .self⟩)))

/-- A value that does not contain itself, whose keys are texts, has no form exactly when it leads to
a reference, a resource or a composite without one, or to an interpolated text that shows a
reference without a name or an entity, directly or in another such text. It is refused by a failure
of the serializer then, and by nothing else. Its form is a tree of lists and of tables under texts,
whose leaves are plain: nothing, texts, those of references to other backends, and those that the
value leads to. -/
theorem form_fails_iff (acyclic : s.Acyclic v) (texts : s.TextKeys v) {P : Value → Prop}
    (leaves : ∀ w, P w → w.isLeaf = true) (cross : ∀ name, (plan.cross name).BuiltOf P)
    (convert : Bool) :
    ((∃ message, form s plan convert v = .error (.failed (.serialization message))) ↔
      ∃ w, s.Within v w ∧ s.NoForm w) ∧
    (∀ fault, form s plan convert v = .error fault →
      ∃ message, fault = .failed (.serialization message)) ∧
    ∀ d, form s plan convert v = .ok d →
      d.BuiltOf fun w => w.isLeaf = true ∧
        (P w ∨ w = .null ∨ (∃ t, w = .text t) ∨ s.Within v w) := by
  have fails : ∀ fault, form s plan convert v = .error fault →
      fault.IsSerialization ∧ ∃ w, s.Within v w ∧ s.NoForm w := fun fault h =>
    exists_noForm_of_renderTo acyclic texts (.nil s _ v) (by rw [List.length_nil]; omega) h
  refine ⟨⟨fun ⟨_, h⟩ => (fails _ h).2, fun ⟨w, within, noForm⟩ => ?_⟩,
    fun fault h => (fails fault h).1, fun d h => ?_⟩
  · cases result : form s plan convert v with
    | ok d => exact absurd noForm (not_noForm_of_renderTo result within)
    | error fault =>
      obtain ⟨message, rfl⟩ := (fails fault result).1
      exact ⟨message, rfl⟩
  · refine (builtOf_renderTo cross texts h).mono fun w leaf => ?_
    rcases leaf with foreign | rfl | ⟨t, rfl⟩ | ⟨own, within⟩
    · exact ⟨leaves w foreign, .inl foreign⟩
    · exact ⟨rfl, .inr (.inl rfl)⟩
    · exact ⟨rfl, .inr (.inr (.inl ⟨t, rfl⟩))⟩
    · exact ⟨own, .inr (.inr (.inr within))⟩

/-- A rule with an interpolated text in a tuple, which shows an attribute of a bucket. -/
def ruleStore : Store :=
  let s := (initial.newEntity .resource "Bucket" "template" "Bucket" [] [("arn", "Arn")] none).2
  let s := (s.newIntrinsic (.interpolation ["arn:", "/*"] [.reference 0])).2
  let s := (s.newSequence .tuple [.intrinsic 4, .null]).2
  (s.newEntity .property "Rule" "template" "Rule"
    [(.text "resources", .sequence 0), (.text "effect", .text "Allow")] [] none).2

/-- How deep values of the rule are nested. -/
def ruleRank : Value → Nat
  | .entity _ | .mapping _ => 3
  | .sequence _ => 2
  | .intrinsic _ => 1
  | _ => 0

theorem mem_contents_ruleStore {q : Place} (mem : q ∈ ruleStore.contents v) :
    ruleRank q.value < ruleRank v ∧ ∀ key, q.steps = [.key key] → ∃ k, key = .text k := by
  have ofRule : ∀ p : Place, p ∈ entrySteps (ruleStore.props 1) →
      ruleRank p.value < 3 ∧ ∀ key, p.steps = [.key key] → ∃ k, key = .text k := by
    rintro p (_ | ⟨_, _ | ⟨_, ⟨⟩⟩⟩)
    · exact ⟨by decide, fun key eq => ⟨"resources", by simpa using eq.symm⟩⟩
    · exact ⟨by decide, fun key eq => ⟨"effect", by simpa using eq.symm⟩⟩
  match v with
  | .sequence 0 =>
    rcases mem with _ | ⟨_, _ | ⟨_, ⟨⟩⟩⟩
    · exact ⟨by decide, nofun⟩
    · exact ⟨by decide, nofun⟩
  | .sequence (_ + 1) => cases mem
  | .mapping 0 => cases mem
  | .mapping 1 => exact ofRule q mem
  | .mapping (_ + 2) => cases mem
  | .entity 0 => cases mem
  | .entity 1 => exact ofRule q mem
  | .entity (_ + 2) => cases mem
  | .null | .bool _ | .int _ | .float _ | .text _ | .bytes _ | .path _ | .moment _ | .module
  | .function | .reference _ | .output _ | .intrinsic _ | .constructor _ | .definition _
  | .composite _ => cases mem

theorem part_ruleStore {w : Value} (part : ruleStore.Part v w) : ruleRank w < ruleRank v := by
  cases part with
  | content mem => exact (mem_contents_ruleStore mem).1
  | @shown i parts values w form mem =>
    match i with
    | 4 =>
      cases form
      obtain rfl := List.mem_singleton.mp mem
      decide
    | 0 | 1 | 2 | 3 => cases form
    | _ + 5 => cases form

theorem acyclic_ruleStore (v : Value) : ruleStore.Acyclic v := by
  have falls : ∀ a b, Relation.TransGen ruleStore.Part a b → ruleRank b < ruleRank a := by
    intro a b leads
    induction leads with
    | single part => exact part_ruleStore part
    | tail _ part ih => exact (part_ruleStore part).trans ih
  exact fun w _ again => lt_irrefl _ (falls w w again)

theorem textKeys_ruleStore (v : Value) : ruleStore.TextKeys v :=
  fun _ _ key _ mem eq => (mem_contents_ruleStore mem).2 key eq

theorem builtOf_markOutput (name : String) :
    (markOutput name).BuiltOf fun w => ∃ t, w = .text t :=
  builtOf_text ⟨name, rfl⟩

/-- The rule has no form, as its text shows an attribute of the bucket, which has no name. -/
theorem form_fails_iff_rule :
    let P : Value → Prop := fun w => ∃ t, w = .text t
    ruleStore.Acyclic (.entity 1) ∧ ruleStore.TextKeys (.entity 1) ∧
      (∀ w, P w → w.isLeaf = true) ∧ (∀ name, (markOutput name).BuiltOf P) ∧
      ∃ message, form ruleStore ⟨["bucket"], markOutput, []⟩ true (.entity 1) =
        .error (.failed (.serialization message)) := by
  intro P
  have leaves : ∀ w, P w → w.isLeaf = true := fun w ⟨t, eq⟩ => eq ▸ rfl
  refine ⟨acyclic_ruleStore _, textKeys_ruleStore _, leaves, builtOf_markOutput, ?_⟩
  let plan : Plan := ⟨["bucket"], markOutput, []⟩
  have cross : ∀ name, (plan.cross name).BuiltOf P := builtOf_markOutput
  have spec :=
    form_fails_iff (acyclic_ruleStore (.entity 1)) (textKeys_ruleStore _) leaves cross true
  have tuple : ruleStore.Within (.entity 1) (.sequence 0) :=
    .inside (q := ⟨[.key (.text "resources")], .sequence 0⟩) .self List.mem_cons_self
  have text : ruleStore.Within (.entity 1) (.intrinsic 4) :=
    .inside (q := ⟨[.index 0], .intrinsic 4⟩) tuple List.mem_cons_self
  have noText : ruleStore.NoText (.intrinsic 4) :=
    .interpolation (v := .reference 0) rfl List.mem_cons_self (.reference rfl)
  exact spec.1.mpr ⟨_, text, .interpolation noText⟩

end Template
end Infra
