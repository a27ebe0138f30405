import Infra.Proofs.Discovery.Arena
import Infra.Text.Order
import Mathlib.Data.List.Induction

/-!
# Named entries in insertion order

* `Named.insert_of_mem`, `Named.insert_of_not_mem` : a setting replaces the value under its name, and
  a new name comes last; `Named.names_insert`, `Named.lookup_insert` : so it decides that value alone;
* `Named.lookup_filter`, `Named.lookup_filter_values` : to leave out names or values makes no
  difference to the others;
* `Named.eq_of_lookup` : entries with the same names in order and the same values are the same;
* `Named.setAll` : some settings on top of entries; `Named.lookup_setAll` : the last one under a
  name decides, and `Named.setAll_ofList` : the entries that settings leave can stand for them;
  `Named.setAll_of_new` : settings under new names come last;
* `Named.mem_ofList_iff_last` : settings leave the last one of each name;
  `Named.forall_mem_ofList_iff` : and so all of them exactly when those of one name agree;
* `Named.alike_ofList` : settings of the same names with related values leave such entries;
  `Named.ofList_rename` : and so do settings under other names.
-/

namespace Infra.Named

variable {α : Type} {entries : List (String × α)} {name : String}

theorem isSome_lookup_iff : (entries.lookup name).isSome = true ↔ name ∈ entries.map (·.1) := by
  rw [Option.isSome_iff_ne_none, ne_eq, lookup_eq_none_iff_not_mem, not_not]

theorem isNone_lookup_iff : (entries.lookup name).isNone = true ↔ name ∉ entries.map (·.1) := by
  rw [Option.isNone_iff_eq_none, lookup_eq_none_iff_not_mem]

/-! ## One setting -/

theorem any_eq_iff : (entries.any fun entry => entry.1 == name) = true ↔
    name ∈ entries.map (·.1) := by
  simp

theorem insert_of_mem (mem : name ∈ entries.map (·.1)) (value : α) :
    insert entries name value =
      entries.map fun entry => if entry.1 = name then (name, value) else entry := by
  unfold insert
  rw [if_pos (any_eq_iff.mpr mem)]
  simp only [beq_iff_eq]

theorem insert_of_not_mem (new : name ∉ entries.map (·.1)) (value : α) :
    insert entries name value = entries ++ [(name, value)] := by
  unfold insert
  rw [if_neg fun known => new (any_eq_iff.mp known)]

theorem names_insert (entries : List (String × α)) (name : String) (value : α) :
    (insert entries name value).map (·.1) =
      if name ∈ entries.map (·.1) then entries.map (·.1) else entries.map (·.1) ++ [name] := by
  by_cases mem : name ∈ entries.map (·.1)
  · rw [insert_of_mem mem, if_pos mem, List.map_map]
    refine List.map_congr_left fun entry _ => ?_
    by_cases eq : entry.1 = name
    · simp [eq]
    · simp [eq]
  · rw [insert_of_not_mem mem, if_neg mem, List.map_append, List.map_singleton]

theorem mem_of_mem_insert {value : α} {entry : String × α}
    (mem : entry ∈ insert entries name value) : entry ∈ entries ∨ entry = (name, value) := by
  by_cases known : name ∈ entries.map (·.1)
  · rw [insert_of_mem known] at mem
    obtain ⟨before, inside, rfl⟩ := List.mem_map.mp mem
    split
    · exact .inr rfl
    · exact .inl inside
  · rw [insert_of_not_mem known, List.mem_append, List.mem_singleton] at mem
    exact mem

theorem mem_names_insert {entries : List (String × α)} {name key : String} {value : α} :
    name ∈ (insert entries key value).map (·.1) ↔ name ∈ entries.map (·.1) ∨ name = key := by
  rw [names_insert]
  split
  · next known => exact ⟨.inl, fun either => either.elim id fun eq => eq ▸ known⟩
  · rw [List.mem_append, List.mem_singleton]

theorem nodup_insert (nodup : (entries.map (·.1)).Nodup) (name : String) (value : α) :
    ((insert entries name value).map (·.1)).Nodup := by
  rw [names_insert]
  split
  · exact nodup
  · next new => simpa using nodup.concat new

theorem lookup_filter (entries : List (String × α)) (p : String → Bool) (name : String) :
    (entries.filter fun entry => p entry.1).lookup name =
      if p name then entries.lookup name else none := by
  induction entries with
  | nil => simp
  | cons entry rest ih =>
    obtain ⟨first, value⟩ := entry
    rw [List.filter_cons, List.lookup_cons]
    by_cases same : name = first
    · subst same
      by_cases kept : p name
      · simp [kept]
      · simp [kept, ih]
    · have other : (name == first) = false := by simpa using same
      rw [other]
      by_cases kept : p first
      · simp [kept, List.lookup_cons, other, ih]
      · simp [kept, ih]

/-- To leave out values makes no difference to the others under different names. -/
theorem lookup_filter_values (nodup : (entries.map (·.1)).Nodup) (p : α → Bool) (name : String) :
    (entries.filter fun entry => p entry.2).lookup name = (entries.lookup name).filter p := by
  have kept : ((entries.filter fun entry => p entry.2).map (·.1)).Nodup :=
    nodup.sublist (List.filter_sublist.map _)
  ext value
  rw [lookup_eq_some_iff_mem kept, List.mem_filter, Option.filter_eq_some_iff,
    lookup_eq_some_iff_mem nodup]

theorem lookup_replace (entries : List (String × α)) {name other : String} (value : α)
    (mem : name ∈ entries.map (·.1)) :
    (entries.map fun entry => if entry.1 = name then (name, value) else entry).lookup other =
      if other = name then some value else entries.lookup other := by
  induction entries with
  | nil => cases mem
  | cons entry rest ih =>
    obtain ⟨key, held⟩ := entry
    rw [List.map_cons]
    by_cases eq : key = name
    · subst eq
      rw [if_pos rfl, List.lookup_cons, List.lookup_cons]
      by_cases same : other = key
      · simp [same]
      · rw [beq_eq_false_iff_ne.mpr same, if_neg same]
        by_cases later : key ∈ rest.map (·.1)
        · rw [ih later, if_neg same]
        · -- No later entry is replaced.
          have kept : rest.map (fun entry => if entry.1 = key then (key, value) else entry) = rest := by
            refine (List.map_congr_left fun entry inside => if_neg ?_).trans (List.map_id' rest)
            rintro rfl
            exact later (List.mem_map_of_mem inside)
          rw [kept]
    · have later : name ∈ rest.map (·.1) := List.mem_of_ne_of_mem (Ne.symm eq) mem
      rw [if_neg eq, List.lookup_cons, List.lookup_cons]
      by_cases same : other = key
      · rw [beq_iff_eq.mpr same, if_neg (same ▸ eq)]
      · rw [beq_eq_false_iff_ne.mpr same, ih later]

/-- A setting decides the value under its name and no other. -/
theorem lookup_insert (entries : List (String × α)) (name : String) (value : α) (other : String) :
    (insert entries name value).lookup other =
      if other = name then some value else entries.lookup other := by
  by_cases mem : name ∈ entries.map (·.1)
  · rw [insert_of_mem mem, lookup_replace entries value mem]
  · rw [insert_of_not_mem mem, List.lookup_append, List.lookup_cons, List.lookup_nil]
    by_cases eq : other = name
    · rw [eq, lookup_eq_none_iff_not_mem.mpr mem, beq_self_eq_true, if_pos rfl, Option.none_or]
    · rw [beq_eq_false_iff_ne.mpr eq, if_neg eq, Option.or_none]

/-- Entries with the same names in order and the same values are the same. -/
theorem eq_of_lookup {l m : List (String × α)} (nodup : (l.map (·.1)).Nodup)
    (names : l.map (·.1) = m.map (·.1)) (values : ∀ name, l.lookup name = m.lookup name) :
    l = m := by
  have nodup' : (m.map (·.1)).Nodup := names ▸ nodup
  have lengths : l.length = m.length := by simpa using congrArg List.length names
  refine List.ext_getElem lengths fun i here there => ?_
  have key : l[i].1 = m[i].1 := by
    have same := List.getElem_of_eq names (i := i) (by simpa using here)
    simpa using same
  have left : l.lookup l[i].1 = some l[i].2 :=
    (lookup_eq_some_iff_mem nodup).mpr (List.getElem_mem here)
  have right : m.lookup m[i].1 = some m[i].2 :=
    (lookup_eq_some_iff_mem nodup').mpr (List.getElem_mem there)
  rw [values, key, right] at left
  exact Prod.ext key (Option.some.inj left).symm

/-! ## Several settings -/

/-- The entries after some settings, made one after the other. -/
def setAll (entries settings : List (String × α)) : List (String × α) :=
  settings.foldl (fun entries setting => insert entries setting.1 setting.2) entries

theorem ofList_eq (settings : List (String × α)) : ofList settings = setAll [] settings := rfl

theorem nodup_setAll (nodup : (entries.map (·.1)).Nodup) (settings : List (String × α)) :
    ((setAll entries settings).map (·.1)).Nodup := by
  unfold setAll
  induction settings generalizing entries with
  | nil => exact nodup
  | cons setting rest ih => exact ih (nodup_insert nodup _ _)

theorem nodup_ofList (settings : List (String × α)) : ((ofList settings).map (·.1)).Nodup := by
  have none : (([] : List (String × α)).map (·.1)).Nodup := .nil
  exact nodup_setAll none settings

/-- The last setting under a name decides its value. -/
theorem lookup_setAll (entries settings : List (String × α)) (name : String) :
    (setAll entries settings).lookup name =
      (settings.reverse.lookup name).or (entries.lookup name) := by
  unfold setAll
  induction settings generalizing entries with
  | nil => rfl
  | cons setting rest ih =>
    obtain ⟨key, value⟩ := setting
    rw [List.foldl_cons, ih, lookup_insert, List.reverse_cons, List.lookup_append, Option.or_assoc,
      List.lookup_cons, List.lookup_nil]
    by_cases eq : name = key
    · rw [if_pos eq, beq_iff_eq.mpr eq, Option.some_or]
    · rw [if_neg eq, beq_eq_false_iff_ne.mpr eq, Option.none_or]

theorem setAll_append (entries settings more : List (String × α)) :
    setAll entries (settings ++ more) = setAll (setAll entries settings) more :=
  List.foldl_append

/-- Settings under new and different names come last, in their order. -/
theorem setAll_of_new {settings : List (String × α)}
    (nodup : (entries.map (·.1) ++ settings.map (·.1)).Nodup) :
    setAll entries settings = entries ++ settings := by
  unfold setAll
  induction settings generalizing entries with
  | nil => rw [List.foldl_nil, List.append_nil]
  | cons setting rest ih =>
    have apart : (entries.map (·.1) ++ setting.1 :: rest.map (·.1)).Nodup := nodup
    have new : setting.1 ∉ entries.map (·.1) := fun known =>
      (List.disjoint_of_nodup_append apart) known List.mem_cons_self
    rw [List.foldl_cons, insert_of_not_mem new, ih, List.append_assoc, List.singleton_append]
    rw [List.map_append, List.map_singleton, List.append_assoc, List.singleton_append]
    exact apart

theorem lookup_reverse (nodup : (entries.map (·.1)).Nodup) (name : String) :
    entries.reverse.lookup name = entries.lookup name := by
  have reversed : (entries.reverse.map (·.1)).Nodup := by
    rw [List.map_reverse]
    exact List.nodup_reverse.mpr nodup
  ext value
  rw [lookup_eq_some_iff_mem reversed, lookup_eq_some_iff_mem nodup, List.mem_reverse]

/-- Adds a name to some names, unless it is one of them. -/
def addName (kept : List String) (name : String) : List String :=
  if kept.contains name then kept else kept ++ [name]

theorem addName_of_mem {kept : List String} (mem : name ∈ kept) : addName kept name = kept :=
  if_pos (List.contains_iff_mem.mpr mem)

theorem addName_of_not_mem {kept : List String} (new : name ∉ kept) :
    addName kept name = kept ++ [name] :=
  if_neg fun known => new (List.contains_iff_mem.mp known)

theorem names_setAll (entries settings : List (String × α)) :
    (setAll entries settings).map (·.1) = (settings.map (·.1)).foldl addName (entries.map (·.1)) := by
  unfold setAll
  induction settings generalizing entries with
  | nil => rfl
  | cons setting rest ih =>
    rw [List.foldl_cons, ih, List.map_cons, List.foldl_cons, names_insert]
    congr 1
    by_cases mem : setting.1 ∈ entries.map (·.1)
    · rw [if_pos mem, addName_of_mem mem]
    · rw [if_neg mem, addName_of_not_mem mem]

theorem foldl_addName_dedupe (kept names : List String) :
    (names.foldl addName []).foldl addName kept = names.foldl addName kept := by
  induction names using List.reverseRecOn with
  | nil => rfl
  | append_singleton names name ih =>
    rw [List.foldl_concat, List.foldl_concat]
    by_cases known : name ∈ names.foldl addName []
    · have mem : name ∈ names := by simpa using (Text.mem_foldl_dedupe names []).mp known
      have both : name ∈ names.foldl addName kept := (Text.mem_foldl_dedupe names kept).mpr (.inr mem)
      rw [addName_of_mem known, addName_of_mem both, ih]
    · rw [addName_of_not_mem known, List.foldl_concat, ih]

theorem lookup_ofList (settings : List (String × α)) (name : String) :
    (ofList settings).lookup name = settings.reverse.lookup name := by
  rw [ofList_eq, lookup_setAll, List.lookup_nil, Option.or_none]

theorem mem_names_setAll {entries settings : List (String × α)} :
    name ∈ (setAll entries settings).map (·.1) ↔
      name ∈ entries.map (·.1) ∨ name ∈ settings.map (·.1) := by
  rw [names_setAll]
  exact Text.mem_foldl_dedupe _ _

theorem mem_names_ofList {settings : List (String × α)} :
    name ∈ (ofList settings).map (·.1) ↔ name ∈ settings.map (·.1) := by
  rw [ofList_eq, mem_names_setAll]
  simp

/-- What settings leave under a name is the value of the last of them. -/
theorem mem_ofList_iff {settings : List (String × α)} {value : α} :
    (name, value) ∈ ofList settings ↔ settings.reverse.lookup name = some value := by
  rw [← lookup_ofList, lookup_eq_some_iff_mem (nodup_ofList settings)]

theorem mem_of_mem_ofList {settings : List (String × α)} {value : α}
    (mem : (name, value) ∈ ofList settings) : (name, value) ∈ settings := by
  obtain ⟨before, after, split, -⟩ := List.lookup_eq_some_iff.mp (mem_ofList_iff.mp mem)
  exact List.mem_reverse.mp (by rw [split]; simp)

/-- Settings that agree on a name leave their value there. -/
theorem mem_ofList {settings : List (String × α)} {value : α} (mem : (name, value) ∈ settings)
    (agree : ∀ other, (name, other) ∈ settings → other = value) :
    (name, value) ∈ ofList settings := by
  have known : name ∈ (ofList settings).map (·.1) :=
    mem_names_ofList.mpr (List.mem_map_of_mem (f := (·.1)) mem)
  obtain ⟨⟨_, other⟩, inside, rfl⟩ := List.mem_map.mp known
  rwa [← agree other (mem_of_mem_ofList inside)]

/-- A setting is left exactly when no later one has its name. -/
theorem mem_ofList_iff_last {settings : List (String × α)} {value : α} :
    (name, value) ∈ ofList settings ↔ ∃ before after,
      settings = before ++ (name, value) :: after ∧ name ∉ after.map (·.1) := by
  rw [mem_ofList_iff, List.lookup_eq_some_iff]
  constructor
  · rintro ⟨after, before, split, new⟩
    refine ⟨before.reverse, after.reverse, ?_, fun known => ?_⟩
    · rw [← List.reverse_reverse settings, split]
      simp
    · obtain ⟨entry, inside, rfl⟩ := List.mem_map.mp known
      simpa using new entry (List.mem_reverse.mp inside)
  · rintro ⟨before, after, rfl, new⟩
    refine ⟨after.reverse, before.reverse, by simp, fun entry inside => bne_iff_ne.mpr ?_⟩
    rintro rfl
    exact new (List.mem_map_of_mem (List.mem_reverse.mp inside))

/-- All settings are left exactly when those of one name agree. -/
theorem forall_mem_ofList_iff {settings : List (String × α)} :
    (∀ setting ∈ settings, setting ∈ ofList settings) ↔
      ∀ name value other, (name, value) ∈ settings → (name, other) ∈ settings → value = other := by
  constructor
  · intro kept name value other mem mem_other
    have same := mem_ofList_iff.mp (kept _ mem)
    rw [mem_ofList_iff.mp (kept _ mem_other)] at same
    exact (Option.some.inj same).symm
  · exact fun agree setting mem => mem_ofList mem fun other mem_other =>
      agree setting.1 other setting.2 mem_other mem

theorem mem_ofList_cons {key : String} {first value : α} {rest : List (String × α)} :
    (name, value) ∈ ofList ((key, first) :: rest) ↔
      (name, value) ∈ ofList rest ∨ name = key ∧ value = first ∧ key ∉ rest.map (·.1) := by
  rw [mem_ofList_iff, mem_ofList_iff, List.reverse_cons, List.lookup_append, Option.or_eq_some_iff]
  refine or_congr_right ⟨fun ⟨absent, last⟩ => ?_, fun ⟨same, eq, new⟩ => ⟨?_, ?_⟩⟩
  · obtain ⟨rfl, rfl⟩ : name = key ∧ first = value := by
      rw [List.lookup_cons, List.lookup_nil] at last
      split at last
      · next same => exact ⟨by simpa using same, Option.some.inj last⟩
      · cases last
    refine ⟨rfl, rfl, fun known => ?_⟩
    obtain ⟨⟨_, held⟩, inside, rfl⟩ := List.mem_map.mp known
    simpa using List.lookup_eq_none_iff.mp absent _ (List.mem_reverse.mpr inside)
  · rw [same]
    exact lookup_eq_none_iff_not_mem.mpr (by simpa using new)
  · rw [same, eq, List.lookup_cons, beq_self_eq_true]

theorem insert_of_held {value : α} (nodup : (entries.map (·.1)).Nodup)
    (mem : (name, value) ∈ entries) : insert entries name value = entries := by
  refine eq_of_lookup (nodup_insert nodup name value) ?_ fun other => ?_
  · rw [names_insert, if_pos (List.mem_map_of_mem (f := (·.1)) mem)]
  · rw [lookup_insert]
    split
    · next eq => rw [eq, (lookup_eq_some_iff_mem nodup).mpr mem]
    · rfl

/-- The entries that settings leave can be set in place of them. -/
theorem setAll_ofList (nodup : (entries.map (·.1)).Nodup) (settings : List (String × α)) :
    setAll entries (ofList settings) = setAll entries settings := by
  refine eq_of_lookup (nodup_setAll nodup _) ?_ fun name => ?_
  · rw [names_setAll, names_setAll, ofList_eq, names_setAll]
    exact foldl_addName_dedupe _ _
  · rw [lookup_setAll, lookup_setAll, lookup_reverse (nodup_ofList settings), lookup_ofList]

/-! ## Related entries -/

section Alike

variable {β : Type} {r : α → β → Prop} {l : List (String × α)} {m : List (String × β)}

/-- Entries of one name with related values. -/
def Alike (r : α → β → Prop) (a : String × α) (b : String × β) : Prop := a.1 = b.1 ∧ r a.2 b.2

theorem names_of_alike (h : List.Forall₂ (Alike r) l m) : l.map (·.1) = m.map (·.1) := by
  induction h with
  | nil => rfl
  | cons first _ ih => rw [List.map_cons, List.map_cons, ih, first.1]

theorem alike_insert (h : List.Forall₂ (Alike r) l m) (name : String) {a : α} {b : β}
    (new : r a b) :
    List.Forall₂ (Alike r) (insert l name a) (insert m name b) := by
  by_cases known : name ∈ l.map (·.1)
  · rw [insert_of_mem known, insert_of_mem (names_of_alike h ▸ known),
      List.forall₂_map_left_iff, List.forall₂_map_right_iff]
    refine h.imp fun x y alike => ?_
    rw [← alike.1]
    split
    · exact ⟨rfl, new⟩
    · exact alike
  · rw [insert_of_not_mem known, insert_of_not_mem (names_of_alike h ▸ known)]
    exact List.rel_append h (.cons ⟨rfl, new⟩ .nil)

/-- Settings of the same names with related values leave such entries. -/
theorem alike_ofList (h : List.Forall₂ (Alike r) l m) :
    List.Forall₂ (Alike r) (ofList l) (ofList m) := by
  suffices fold : ∀ {start : List (String × α)} {other : List (String × β)},
      List.Forall₂ (Alike r) start other →
        List.Forall₂ (Alike r) (setAll start l) (setAll other m) from fold .nil
  induction h with
  | nil => exact fun before => before
  | @cons x y _ _ first _ ih =>
    intro start other before
    refine ih ?_
    show List.Forall₂ _ (insert start x.1 x.2) (insert other y.1 y.2)
    rw [← first.1]
    exact alike_insert before x.1 first.2

end Alike

/-! ## Other names -/

section Rename

variable {f : String → String} (inj : Function.Injective f)

include inj

theorem insert_rename (entries : List (String × α)) (name : String) (value : α) :
    insert (entries.map fun entry => (f entry.1, entry.2)) (f name) value =
      (insert entries name value).map fun entry => (f entry.1, entry.2) := by
  have same : ∀ a b, (f a == f b) = (a == b) := by
    intro a b
    rw [Bool.eq_iff_iff, beq_iff_eq, beq_iff_eq]
    exact inj.eq_iff
  unfold insert
  rw [List.any_map]
  simp only [Function.comp_def, same]
  split
  · rw [List.map_map, List.map_map]
    refine List.map_congr_left fun entry _ => ?_
    simp only [Function.comp_apply, same]
    split <;> rfl
  · rw [List.map_append]
    rfl

/-- Settings under other names leave the same entries under other names, if different names stay
different. -/
theorem ofList_rename (settings : List (String × α)) :
    ofList (settings.map fun entry => (f entry.1, entry.2)) =
      (ofList settings).map fun entry => (f entry.1, entry.2) := by
  have fold : ∀ entries : List (String × α),
      setAll (entries.map fun entry => (f entry.1, entry.2))
        (settings.map fun entry => (f entry.1, entry.2)) =
      (setAll entries settings).map fun entry => (f entry.1, entry.2) := by
    unfold setAll
    induction settings with
    | nil => exact fun entries => rfl
    | cons setting rest ih =>
      intro entries
      rw [List.map_cons, List.foldl_cons, List.foldl_cons, insert_rename inj]
      exact ih _
  exact fold []

end Rename

end Infra.Named
