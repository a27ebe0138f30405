import Infra.Proofs.Named

/-!
# Entries in insertion order

* `Value.sameScalar_text` : texts are the same key when they are equal; `Value.sameScalar_iff` : being
  the same key is an equivalence;
* `Entries.insert_of_new` : an entry under a new key stands last;
* `Entries.ofList_ofNamed` : settings under texts leave what they leave as named ones;
* `Entries.length_ofList_eq_iff`, `Entries.ofList_of_apart` : settings leave as many entries as they
  are exactly when no two have the same key, and are then left as they are;
  `Entries.value?_ofList` : in general the last one under a key decides its value;
* `Entries.Last` : a setting with no later one under its key; `Entries.value?_of_last`,
  `Entries.exists_last_of_mem` : these are the settings whose values are left.
-/

namespace Infra

theorem Value.sameScalar_text (a b : String) :
    (Value.text a).sameScalar (.text b) = true ↔ a = b := by
  simp [sameScalar, number?]

/-- What a value is as a key: a number, or the value itself. -/
def Value.asKey (v : Value) : Number ⊕ Value :=
  match v.number? with
  | some n => .inl n
  | none => .inr v

theorem Value.sameScalar_iff {a b : Value} : a.sameScalar b = true ↔ a.asKey = b.asKey := by
  unfold sameScalar asKey
  cases a.number? with
  | none => cases b.number? with
    | none => simp
    | some n => simp
  | some m => cases b.number? with
    | none => simp
    | some n => simp

namespace Entries

variable {α : Type}

theorem insert_of_new {entries : List (Value × α)} {key : Value}
    (new : ∀ entry ∈ entries, ¬ entry.1.sameScalar key) (value : α) :
    insert entries key value = entries ++ [(key, value)] := by
  unfold insert
  rw [if_neg (by simpa using new)]

/-- Named entries as entries under texts. -/
def ofNamed (entries : List (String × α)) : List (Value × α) :=
  entries.map fun entry => (.text entry.1, entry.2)

theorem insert_ofNamed (entries : List (String × α)) (name : String) (value : α) :
    insert (ofNamed entries) (.text name) value = ofNamed (Named.insert entries name value) := by
  have same : ∀ other : String, (Value.text other).sameScalar (.text name) = (other == name) := by
    intro other
    rw [Bool.eq_iff_iff, Value.sameScalar_text, beq_iff_eq]
  unfold insert Named.insert ofNamed
  simp only [List.any_map, List.map_map, Function.comp_def, same]
  split
  · rw [List.map_map]
    refine List.map_congr_left fun entry _ => ?_
    by_cases eq : entry.1 = name <;> simp [eq]
  · simp

/-- Settings under texts leave what they leave as named ones. -/
theorem ofList_ofNamed (settings : List (String × α)) :
    ofList (ofNamed settings) = ofNamed (Named.ofList settings) := by
  suffices fold : ∀ start : List (String × α),
      (ofNamed settings).foldl (fun entries setting => insert entries setting.1 setting.2)
        (ofNamed start) = ofNamed (Named.setAll start settings) from fold []
  induction settings with
  | nil => exact fun start => rfl
  | cons setting rest ih =>
    intro start
    show (ofNamed rest).foldl _ (insert (ofNamed start) (.text setting.1) setting.2) = _
    rw [insert_ofNamed, ih]
    rfl

/-! ## As many entries as settings -/

/-- No two of some settings have the same key. -/
def Apart (settings : List (Value × α)) : Prop :=
  settings.Pairwise fun a b => a.1.sameScalar b.1 = false

theorem ofList_concat (settings : List (Value × α)) (last : Value × α) :
    ofList (settings ++ [last]) = insert (ofList settings) last.1 last.2 :=
  List.foldl_concat ..

theorem keys_insert (entries : List (Value × α)) (key : Value) (value : α) :
    (insert entries key value).map (·.1) =
      if entries.any fun entry => entry.1.sameScalar key then entries.map (·.1)
      else entries.map (·.1) ++ [key] := by
  unfold insert
  split
  · rw [List.map_map]
    refine List.map_congr_left fun entry _ => ?_
    show (ite _ _ _ : Value × α).1 = _
    split <;> rfl
  · rw [List.map_append, List.map_singleton]

theorem any_keys (entries : List (Value × α)) (key : Value) :
    (entries.any fun entry => entry.1.sameScalar key) =
      (entries.map (·.1)).any fun other => other.sameScalar key := by
  rw [List.any_map]
  rfl

theorem any_insert (entries : List (Value × α)) (key : Value) (value : α) (other : Value) :
    ((insert entries key value).any fun entry => entry.1.sameScalar other) =
      ((entries.any fun entry => entry.1.sameScalar other) || key.sameScalar other) := by
  rw [any_keys, keys_insert]
  split
  · next known =>
    rw [← any_keys, eq_comm, Bool.or_eq_left_iff_imp]
    intro same
    obtain ⟨entry, mem, held⟩ := List.any_eq_true.mp known
    refine List.any_eq_true.mpr ⟨entry, mem, ?_⟩
    rw [Value.sameScalar_iff] at *
    exact held.trans same
  · rw [List.any_append, ← any_keys, List.any_cons, List.any_nil, Bool.or_false]

theorem any_ofList (settings : List (Value × α)) (key : Value) :
    ((ofList settings).any fun entry => entry.1.sameScalar key) =
      settings.any fun entry => entry.1.sameScalar key := by
  induction settings using List.reverseRecOn with
  | nil => rfl
  | append_singleton settings last ih =>
    rw [ofList_concat, any_insert, ih, List.any_append, List.any_cons, List.any_nil, Bool.or_false]

theorem length_insert (entries : List (Value × α)) (key : Value) (value : α) :
    (insert entries key value).length =
      if entries.any fun entry => entry.1.sameScalar key then entries.length
      else entries.length + 1 := by
  rw [← List.length_map, keys_insert]
  split
  · rw [List.length_map]
  · rw [List.length_append, List.length_map, List.length_singleton]

theorem length_ofList_le (settings : List (Value × α)) :
    (ofList settings).length ≤ settings.length := by
  induction settings using List.reverseRecOn with
  | nil => exact Nat.le_refl _
  | append_singleton settings last ih =>
    rw [ofList_concat, length_insert, List.length_append, List.length_singleton]
    split <;> omega

theorem ofList_eq_nil_iff {settings : List (Value × α)} : ofList settings = [] ↔ settings = [] := by
  refine ⟨fun none => ?_, fun none => by rw [none]; rfl⟩
  induction settings using List.reverseRecOn with
  | nil => rfl
  | append_singleton settings last _ =>
    rw [ofList_concat, ← List.length_eq_zero_iff, length_insert] at none
    split at none
    · next known =>
      rw [List.length_eq_zero_iff.mp none] at known
      cases known
    · omega

theorem apart_concat {settings : List (Value × α)} {last : Value × α} :
    Apart (settings ++ [last]) ↔
      Apart settings ∧ (settings.any fun entry => entry.1.sameScalar last.1) = false := by
  unfold Apart
  rw [List.pairwise_append, List.any_eq_false]
  simp

/-- Settings leave as many entries as they are exactly when no two of them have the same key. -/
theorem length_ofList_eq_iff {settings : List (Value × α)} :
    (ofList settings).length = settings.length ↔ Apart settings := by
  induction settings using List.reverseRecOn with
  | nil => exact iff_of_true rfl .nil
  | append_singleton settings last ih =>
    have bound := length_ofList_le settings
    rw [ofList_concat, length_insert, any_ofList, apart_concat, List.length_append,
      List.length_singleton]
    cases known : settings.any fun entry => entry.1.sameScalar last.1 with
    | true =>
      rw [if_pos rfl]
      exact iff_of_false (by omega) fun both => Bool.noConfusion both.2
    | false =>
      rw [if_neg Bool.false_ne_true, Nat.add_right_cancel_iff, ih, and_iff_left rfl]

/-- Settings of which no two have the same key are left as they are. -/
theorem ofList_of_apart {settings : List (Value × α)} (apart : Apart settings) :
    ofList settings = settings := by
  induction settings using List.reverseRecOn with
  | nil => rfl
  | append_singleton settings last ih =>
    obtain ⟨before, new⟩ := apart_concat.mp apart
    rw [ofList_concat, ih before, insert_of_new fun entry mem => List.any_eq_false.mp new entry mem]

theorem apart_iff_keys {settings : List (Value × α)} :
    Apart settings ↔ (settings.map (·.1)).Pairwise fun a b => a.sameScalar b = false := by
  rw [Apart, List.pairwise_map]

theorem apart_insert {entries : List (Value × α)} (apart : Apart entries) (key : Value)
    (value : α) : Apart (insert entries key value) := by
  by_cases known : (entries.any fun entry => entry.1.sameScalar key) = true
  · rw [apart_iff_keys, keys_insert, if_pos known]
    exact apart_iff_keys.mp apart
  · unfold insert
    rw [if_neg known]
    exact apart_concat.mpr ⟨apart, Bool.eq_false_iff.mpr known⟩

theorem apart_ofList (settings : List (Value × α)) : Apart (ofList settings) := by
  induction settings using List.reverseRecOn with
  | nil => exact .nil
  | append_singleton settings last ih =>
    rw [ofList_concat]
    exact apart_insert ih _ _

/-! ## The last setting of a key -/

/-- The value that entries have under a key. -/
def value? (entries : List (Value × α)) (key : Value) : Option α :=
  (entries.find? fun entry => entry.1.sameScalar key).map (·.2)

theorem value?_cons (entry : Value × α) (rest : List (Value × α)) (key : Value) :
    value? (entry :: rest) key = if entry.1.sameScalar key then some entry.2 else value? rest key := by
  unfold value?
  rw [List.find?_cons]
  split
  · next same => rw [if_pos same, Option.map_some]
  · next other => rw [if_neg (by simp [other])]

theorem value?_append (entries more : List (Value × α)) (key : Value) :
    value? (entries ++ more) key = (value? entries key).or (value? more key) := by
  unfold value?
  rw [List.find?_append, Option.map_or]

theorem value?_eq_none_iff {entries : List (Value × α)} {key : Value} :
    value? entries key = none ↔ ∀ entry ∈ entries, entry.1.sameScalar key = false := by
  unfold value?
  rw [Option.map_eq_none_iff, List.find?_eq_none]
  simp only [Bool.not_eq_true]

theorem value?_replace (entries : List (Value × α)) (key : Value) (value : α) (other : Value) :
    value? (entries.map fun entry => if entry.1.sameScalar key then (entry.1, value) else entry) other =
      if key.sameScalar other ∧ (entries.any fun entry => entry.1.sameScalar key) then some value
      else value? entries other := by
  induction entries with
  | nil => simp [value?]
  | cons entry rest ih =>
    rw [List.map_cons, value?_cons, value?_cons, ih, List.any_cons]
    simp only [Bool.or_eq_true, Value.sameScalar_iff]
    by_cases here : entry.1.asKey = key.asKey
    · by_cases same : key.asKey = other.asKey
      · simp [here, same]
      · simp [here, same]
    · rw [if_neg here]
      by_cases same : entry.1.asKey = other.asKey
      · have apart : key.asKey ≠ other.asKey := fun eq => here (same.trans eq.symm)
        simp [same, apart]
      · simp only [here, same, false_or, if_false]

theorem value?_insert (entries : List (Value × α)) (key : Value) (value : α) (other : Value) :
    value? (insert entries key value) other =
      if key.sameScalar other then some value else value? entries other := by
  unfold insert
  split
  · next known => simp only [value?_replace, known, and_true]
  · next new =>
    rw [value?_append, value?_cons]
    by_cases same : key.sameScalar other = true
    · have absent : value? entries other = none := by
        refine value?_eq_none_iff.mpr fun entry mem => Bool.eq_false_iff.mpr fun held => new ?_
        refine List.any_eq_true.mpr ⟨entry, mem, ?_⟩
        rw [Value.sameScalar_iff] at *
        exact held.trans same.symm
      rw [absent, if_pos same, if_pos same, Option.none_or]
    · rw [if_neg same, if_neg same]
      exact Option.or_none

/-- The last setting of a key decides its value. -/
theorem value?_ofList (settings : List (Value × α)) (key : Value) :
    value? (ofList settings) key = value? settings.reverse key := by
  induction settings using List.reverseRecOn with
  | nil => rfl
  | append_singleton settings last ih =>
    rw [ofList_concat, value?_insert, ih, List.reverse_concat, value?_cons]

/-- A setting after which there is no other of its key. -/
def Last (settings : List (Value × α)) (setting : Value × α) : Prop :=
  ∃ before after, settings = before ++ setting :: after ∧
    ∀ later ∈ after, later.1.sameScalar setting.1 = false

variable {settings : List (Value × α)} {setting : Value × α}

/-- The last setting of a key has its value there. -/
theorem value?_of_last (last : Last settings setting) :
    value? (ofList settings) setting.1 = some setting.2 := by
  obtain ⟨before, after, rfl, final⟩ := last
  have none : value? after.reverse setting.1 = none :=
    value?_eq_none_iff.mpr fun later mem => final later (List.mem_reverse.mp mem)
  rw [value?_ofList, List.reverse_append, List.reverse_cons, List.append_assoc, value?_append, none,
    Option.none_or, List.singleton_append, value?_cons, if_pos (Value.sameScalar_iff.mpr rfl)]

theorem exists_mem_of_last (last : Last settings setting) :
    ∃ key, (key, setting.2) ∈ ofList settings := by
  obtain ⟨⟨key, _⟩, found, rfl⟩ := Option.map_eq_some_iff.mp (value?_of_last last)
  exact ⟨key, List.mem_of_find?_eq_some found⟩

/-- Every value that is left is that of the last setting of its key. -/
theorem exists_last_of_mem {entry : Value × α} (mem : entry ∈ ofList settings) :
    ∃ setting, Last settings setting ∧ setting.1.sameScalar entry.1 ∧ setting.2 = entry.2 := by
  have held : value? (ofList settings) entry.1 = some entry.2 := by
    obtain ⟨before, after, split⟩ := List.append_of_mem mem
    have apart := apart_ofList settings
    rw [split] at apart ⊢
    have none : value? before entry.1 = none :=
      value?_eq_none_iff.mpr fun other inside =>
        (List.pairwise_append.mp apart).2.2 other inside entry List.mem_cons_self
    rw [value?_append, none, Option.none_or, value?_cons, if_pos (Value.sameScalar_iff.mpr rfl)]
  rw [value?_ofList] at held
  obtain ⟨setting, found, value⟩ := Option.map_eq_some_iff.mp held
  obtain ⟨same, before, after, order, others⟩ := List.find?_eq_some_iff_append.mp found
  refine ⟨setting, ⟨after.reverse, before.reverse, ?_, fun later inside => ?_⟩, same, value⟩
  · rw [← List.reverse_reverse settings, order, List.reverse_append, List.reverse_cons,
      List.append_assoc, List.singleton_append]
  · have other := others later (List.mem_reverse.mp inside)
    rw [Bool.not_eq_true'] at other
    refine Bool.eq_false_iff.mpr fun again => Bool.eq_false_iff.mp other ?_
    rw [Value.sameScalar_iff] at *
    exact again.trans same

end Entries
end Infra
