import Infra.Composite
import Infra.Proofs.Discovery.Arena
import Infra.Proofs.Store.Growth
import Mathlib.Data.List.Induction
import Mathlib.Data.List.Nodup
import Mathlib.Logic.Function.Iterate

/-!
# Merging shared properties

* `Held` : what a property holds, a list by its items;
* `merge shared own` : the properties that an entity has after shared ones have been merged into its
  own;
* `foldl_mergeOne` : to merge one property after the other comes to that;
  `lookup_mergeSet`, `lookup_merge_list` : the result key by key, and where two lists meet;
* `Store.Bag s entries` : the entries of a mapping, with keys that are told apart and values that
  the store knows;
* `Store.mergeShared_spec` : in a store, merging adds lists and comes to such a merge.
-/

namespace Infra

/-- What a property holds: a list by its items, or another value. -/
inductive Held
  | list (items : List Value)
  | other (v : Value)
  deriving DecidableEq, Repr

namespace Held

/-- Whether a value is set. -/
def isSet (h : Held) : Bool := h != .other .null

/-- An entity's own value beside a shared one: two lists are joined with the shared one first, and
otherwise the entity's own value stands. -/
def beside : Held → Held → Held
  | list items, list first => list (first ++ items)
  | own, _ => own

end Held

/-- The properties of an entity with others before its own, where all of them are set. -/
def mergeSet (given own : List (Value × Held)) : List (Value × Held) :=
  (given.map fun entry => (entry.1,
    match own.lookup entry.1 with
    | some h => h.beside entry.2
    | none => entry.2)) ++
  own.filter fun entry => (given.lookup entry.1).isNone

/-- The properties of an entity together with shared ones. Where anything is shared, unset
properties of both are dropped, and the shared ones come first. -/
def merge (shared : List (String × Held)) (own : List (Value × Held)) : List (Value × Held) :=
  if shared = [] then own
  else
    mergeSet ((shared.filter (·.2.isSet)).map fun entry => (.text entry.1, entry.2))
      (own.filter (·.2.isSet))

/-! ## One property after the other -/

/-- Sets an entry. A key that is there already keeps its place. -/
def setHeld (entries : List (Value × Held)) (key : Value) (h : Held) : List (Value × Held) :=
  if key ∈ entries.map (·.1) then
    entries.map fun entry => if entry.1 = key then (key, h) else entry
  else entries ++ [(key, h)]

/-- Merges one property of an entity into what has been merged so far. -/
def mergeOne (merged : List (Value × Held)) (entry : Value × Held) : List (Value × Held) :=
  if entry.2.isSet then
    setHeld merged entry.1 <|
      match merged.lookup entry.1 with
      | some shared => entry.2.beside shared
      | none => entry.2
  else merged

section Pure

variable {given own : List (Value × Held)} {key : Value} {h : Held}

theorem names_mergeSet (given own : List (Value × Held)) : (mergeSet given own).map (·.1) =
    given.map (·.1) ++ (own.filter fun entry => (given.lookup entry.1).isNone).map (·.1) := by
  simp [mergeSet, Function.comp_def]

theorem setHeld_mergeSet_of_new (new : key ∉ own.map (·.1)) (absent : key ∉ given.map (·.1)) :
    setHeld (mergeSet given own) key h = mergeSet given (own ++ [(key, h)]) := by
  have unmerged : key ∉ (mergeSet given own).map (·.1) := by
    rw [names_mergeSet, List.mem_append]
    rintro (before | after)
    · exact absent before
    · exact new ((List.filter_sublist.map _).subset after)
  have same : ∀ entry ∈ given, (own ++ [(key, h)]).lookup entry.1 = own.lookup entry.1 := by
    intro entry mem
    have ne : entry.1 ≠ key := fun eq => absent (eq ▸ List.mem_map_of_mem mem)
    rw [List.lookup_append, List.lookup_cons, beq_eq_false_iff_ne.mpr ne]
    simp
  unfold setHeld
  rw [if_neg unmerged]
  unfold mergeSet
  rw [List.filter_append, List.filter_singleton, lookup_eq_none_iff_not_mem.mpr absent,
    List.append_assoc]
  congr 1
  exact List.map_congr_left fun entry mem => by rw [same entry mem]

theorem setHeld_mergeSet_of_mem (new : key ∉ own.map (·.1)) {shared : Held}
    (nodup : (given.map (·.1)).Nodup) (mem : (key, shared) ∈ given) :
    setHeld (mergeSet given own) key (h.beside shared) = mergeSet given (own ++ [(key, h)]) := by
  have among : key ∈ given.map (·.1) := List.mem_map_of_mem mem
  have found : (given.lookup key).isNone = false := by
    rw [Option.isNone_eq_false_iff, Option.isSome_iff_ne_none]
    exact fun none => lookup_eq_none_iff_not_mem.mp none among
  unfold setHeld
  rw [if_pos (by rw [names_mergeSet]; exact List.mem_append_left _ among)]
  unfold mergeSet
  rw [List.map_append, List.filter_append, List.filter_singleton, found, List.map_map]
  have later : (own.filter fun entry => (given.lookup entry.1).isNone).map
      (fun entry => if entry.1 = key then (key, h.beside shared) else entry) =
      own.filter fun entry => (given.lookup entry.1).isNone := by
    refine (List.map_congr_left fun entry inside => if_neg ?_).trans (List.map_id _)
    rintro rfl
    exact new (List.mem_map_of_mem (List.mem_filter.mp inside).1)
  rw [later, cond_false, List.append_nil]
  congr 1
  refine List.map_congr_left fun entry inside => ?_
  dsimp only [Function.comp_apply]
  by_cases same : entry.1 = key
  · -- No other shared property has the key.
    have eq : entry = (key, shared) := List.inj_on_of_nodup_map nodup inside mem same
    rw [eq, if_pos rfl, List.lookup_append, lookup_eq_none_iff_not_mem.mpr new, List.lookup_cons,
      beq_self_eq_true]
    rfl
  · rw [if_neg same, List.lookup_append, List.lookup_cons, beq_eq_false_iff_ne.mpr same]
    simp

theorem lookup_filter_of_key (p : Value → Bool) (entries : List (Value × Held))
    (kept : p key = true) :
    (entries.filter fun entry => p entry.1).lookup key = entries.lookup key := by
  induction entries with
  | nil => rfl
  | cons entry rest ih =>
    obtain ⟨first, h⟩ := entry
    rw [List.filter_cons, List.lookup_cons]
    by_cases same : key = first
    · subst same
      rw [if_pos kept, List.lookup_cons, beq_self_eq_true]
    · rw [beq_eq_false_iff_ne.mpr same]
      split
      · rw [List.lookup_cons, beq_eq_false_iff_ne.mpr same]
        exact ih
      · exact ih

theorem lookup_mergeSet (given own : List (Value × Held)) (key : Value) :
    (mergeSet given own).lookup key =
      match given.lookup key, own.lookup key with
      | some shared, some h => some (h.beside shared)
      | some shared, none => some shared
      | none, h => h := by
  have before : ∀ given : List (Value × Held),
      (given.map fun entry => (entry.1,
        match own.lookup entry.1 with
        | some h => h.beside entry.2
        | none => entry.2)).lookup key =
      (given.lookup key).map fun shared =>
        match own.lookup key with
        | some h => h.beside shared
        | none => shared := by
    intro given
    induction given with
    | nil => rfl
    | cons entry rest ih =>
      obtain ⟨first, shared⟩ := entry
      rw [List.map_cons, List.lookup_cons, List.lookup_cons, ih]
      by_cases same : key = first
      · subst same
        rw [beq_self_eq_true]
        rfl
      · rw [beq_eq_false_iff_ne.mpr same]
  unfold mergeSet
  rw [List.lookup_append, before]
  cases found : given.lookup key with
  | none =>
    rw [Option.map_none, Option.none_or,
      lookup_filter_of_key (fun key => (given.lookup key).isNone) own (by rw [found]; rfl)]
  | some shared =>
    rw [Option.map_some, Option.some_or]
    cases own.lookup key <;> rfl

/-- To merge one property after the other comes to merging those that are set. -/
theorem foldl_mergeOne (nodup : (given.map (·.1)).Nodup) (distinct : (own.map (·.1)).Nodup) :
    own.foldl mergeOne given = mergeSet given (own.filter (·.2.isSet)) := by
  induction own using List.reverseRecOn with
  | nil => simp [mergeSet]
  | append_singleton seen entry ih =>
    obtain ⟨key, h⟩ := entry
    obtain ⟨before, -, apart⟩ := List.nodup_append.mp (List.map_append ▸ distinct)
    have new : key ∉ (seen.filter (·.2.isSet)).map (·.1) := fun mem =>
      apart key ((List.filter_sublist.map _).subset mem) key (by simp) rfl
    rw [List.foldl_append, ih before, List.filter_append, List.filter_singleton]
    show mergeOne _ (key, h) = _
    unfold mergeOne
    dsimp only
    rw [lookup_mergeSet, lookup_eq_none_iff_not_mem.mpr new]
    cases h.isSet with
    | false => simp
    | true =>
      cases found : given.lookup key with
      | none => exact setHeld_mergeSet_of_new new (lookup_eq_none_iff_not_mem.mp found)
      | some shared =>
        obtain ⟨before, after, split, -⟩ := List.lookup_eq_some_iff.mp found
        exact setHeld_mergeSet_of_mem new nodup (split ▸ by simp)

/-! ### Lists -/

theorem lookup_filter_isSet {κ : Type} [BEq κ] {entries : List (κ × Held)} {key : κ}
    (found : entries.lookup key = some h) (set : h.isSet = true) :
    (entries.filter (·.2.isSet)).lookup key = some h := by
  induction entries with
  | nil => cases found
  | cons entry rest ih =>
    obtain ⟨first, held⟩ := entry
    rw [List.lookup_cons] at found
    rw [List.filter_cons]
    cases same : key == first with
    | true =>
      rw [same] at found
      obtain rfl := Option.some.inj found
      rw [if_pos set, List.lookup_cons, same]
    | false =>
      rw [same] at found
      split
      · rw [List.lookup_cons, same]
        exact ih found
      · exact ih found

theorem lookup_map_text (shared : List (String × Held)) (name : String) :
    (shared.map fun entry => (Value.text entry.1, entry.2)).lookup (.text name) =
      shared.lookup name := by
  induction shared with
  | nil => rfl
  | cons entry rest ih =>
    have same : (Value.text name == .text entry.1) = (name == entry.1) := by
      rw [Bool.eq_iff_iff]
      simp
    rw [List.map_cons, List.lookup_cons, List.lookup_cons, ih, same]

/-- Two lists are joined, the shared one first. -/
theorem lookup_merge_list {shared : List (String × Held)} {name : String} {first last : List Value}
    (given : shared.lookup name = some (.list first))
    (held : own.lookup (.text name) = some (.list last)) :
    (merge shared own).lookup (.text name) = some (.list (first ++ last)) := by
  have some : shared ≠ [] := by
    rintro rfl
    cases given
  unfold merge
  rw [if_neg some, lookup_mergeSet, lookup_map_text, lookup_filter_isSet given rfl,
    lookup_filter_isSet held rfl]
  rfl

/-- To merge again repeats the shared list. -/
theorem lookup_iterate_merge_list {shared : List (String × Held)} {name : String}
    {first last : List Value} (given : shared.lookup name = some (.list first))
    (held : own.lookup (.text name) = some (.list last)) (n : Nat) :
    ((merge shared)^[n] own).lookup (.text name) =
      some (.list ((List.replicate n first).flatten ++ last)) := by
  induction n with
  | zero => exact held
  | succ n ih =>
    rw [Function.iterate_succ_apply', lookup_merge_list given ih, List.replicate_succ,
      List.flatten_cons, List.append_assoc]

end Pure

/-! ## In a store -/

namespace Store

variable {s t : Store} {entries own : List (Value × Value)} {key v : Value}

/-- What a value of the store holds. -/
def held (s : Store) (v : Value) : Held :=
  match s.list? v with
  | some items => .list items
  | none => .other v

/-- What the values of entries hold. -/
def heldOf {κ : Type} (s : Store) (entries : List (κ × Value)) : List (κ × Held) :=
  entries.map fun entry => (entry.1, s.held entry.2)

theorem map_fst_heldOf {κ : Type} (s : Store) (entries : List (κ × Value)) :
    (s.heldOf entries).map (·.1) = entries.map (·.1) := by
  simp [heldOf]

/-- The entries of a mapping: keys that are told apart, and values that the store knows. -/
structure Bag (s : Store) (entries : List (Value × Value)) : Prop where
  keys : ∀ entry ∈ entries, s.isKey entry.1 = true
  distinct : (entries.map (·.1)).Pairwise fun a b => s.sameKey a b = false
  known : ∀ entry ∈ entries, s.Known entry.2

theorem Bag.nodup (h : Bag s entries) : (entries.map (·.1)).Nodup := by
  refine List.Pairwise.imp ?_ h.distinct
  rintro a b apart rfl
  rw [sameKey_self] at apart
  cases apart

theorem Bag.tail {entry : Value × Value} (h : Bag s (entry :: entries)) : Bag s entries where
  keys := fun other mem => h.keys other (List.mem_cons_of_mem _ mem)
  distinct := (List.pairwise_cons.mp h.distinct).2
  known := fun other mem => h.known other (List.mem_cons_of_mem _ mem)

theorem Bag.grows (h : Bag s entries) (grows : Grows s t) : Bag t entries where
  keys entry mem := grows.isKey (h.keys entry mem)
  distinct := by
    refine h.distinct.imp_of_mem fun {a b} mem _ apart => ?_
    obtain ⟨entry, inside, rfl⟩ := List.mem_map.mp mem
    rw [grows.sameKey (h.keys entry inside), apart]
  known entry mem := (h.known entry mem).grows grows

theorem Grows.list? (grows : Grows s t) (known : s.Known v) : t.list? v = s.list? v := by
  cases v with
  | sequence id =>
    unfold Store.list?
    dsimp only
    rw [grows.kept id known]
  | _ => rfl

theorem Grows.held (grows : Grows s t) (known : s.Known v) : t.held v = s.held v := by
  unfold Store.held
  rw [grows.list? known]

theorem Grows.heldOf {κ : Type} {entries : List (κ × Value)} (grows : Grows s t)
    (known : ∀ entry ∈ entries, s.Known entry.2) : t.heldOf entries = s.heldOf entries :=
  List.map_congr_left fun entry mem => by rw [grows.held (known entry mem)]

theorem isSet_held (s : Store) (v : Value) : (s.held v).isSet = (v != .null) := by
  unfold held
  cases items : s.list? v with
  | some items =>
    cases v with
    | sequence id => rfl
    | _ => cases items
  | none =>
    rw [Bool.eq_iff_iff]
    simp [Held.isSet]

theorem lookup_heldOf (t : Store) (entries : List (Value × Value)) (key : Value) :
    (t.heldOf entries).lookup key = (entries.lookup key).map t.held := by
  induction entries with
  | nil => rfl
  | cons entry rest ih =>
    unfold heldOf at ih ⊢
    rw [List.map_cons, List.lookup_cons, List.lookup_cons, ih]
    cases key == entry.1 <;> rfl

/-- The key is the same as one of the entries only where it is equal to it. -/
def Tells (s : Store) (entries : List (Value × Value)) (key : Value) : Prop :=
  ∀ entry ∈ entries, s.sameKey entry.1 key = decide (entry.1 = key)

theorem Tells.valueAt? (h : Tells s entries key) : s.valueAt? entries key = entries.lookup key := by
  induction entries with
  | nil => rfl
  | cons entry rest ih =>
    obtain ⟨first, held⟩ := entry
    obtain ⟨here, later⟩ := List.forall_mem_cons.mp h
    unfold Store.valueAt? at ih ⊢
    rw [List.find?_cons, List.lookup_cons]
    dsimp only at here ⊢
    rw [here]
    by_cases same : first = key
    · simp [same]
    · rw [decide_eq_false same, beq_eq_false_iff_ne.mpr (Ne.symm same)]
      exact ih later

theorem Tells.insertEntry_of_mem (h : Tells s entries key) (mem : key ∈ entries.map (·.1))
    (v : Value) : s.insertEntry entries key v =
      entries.map fun entry => if entry.1 = key then (key, v) else entry := by
  have any : (entries.any fun entry => s.sameKey entry.1 key) = true := by
    obtain ⟨entry, inside, same⟩ := List.mem_map.mp mem
    exact List.any_eq_true.mpr ⟨entry, inside, (h entry inside).trans (decide_eq_true same)⟩
  unfold insertEntry
  rw [if_pos any]
  refine List.map_congr_left fun entry inside => ?_
  rw [h entry inside]
  by_cases same : entry.1 = key
  · simp [same]
  · simp [same]

theorem Tells.insertEntry_of_not_mem (h : Tells s entries key) (new : key ∉ entries.map (·.1))
    (v : Value) : s.insertEntry entries key v = entries ++ [(key, v)] := by
  have none : ¬ (entries.any fun entry => s.sameKey entry.1 key) = true := by
    intro any
    obtain ⟨entry, inside, same⟩ := List.any_eq_true.mp any
    rw [h entry inside, decide_eq_true_eq] at same
    exact new (same ▸ List.mem_map_of_mem inside)
  unfold insertEntry
  rw [if_neg none]

theorem Tells.heldOf_insertEntry (h : Tells s entries key) (t : Store) (v : Value) :
    t.heldOf (s.insertEntry entries key v) = setHeld (t.heldOf entries) key (t.held v) := by
  unfold setHeld
  rw [map_fst_heldOf]
  split
  · next mem =>
    rw [h.insertEntry_of_mem mem]
    unfold heldOf
    rw [List.map_map, List.map_map]
    refine List.map_congr_left fun entry _ => ?_
    by_cases same : entry.1 = key
    · simp [same]
    · simp [same]
  · next new =>
    rw [h.insertEntry_of_not_mem new]
    simp [heldOf]

theorem Bag.insertEntry (bag : Bag s entries) (h : Tells s entries key)
    (isKey : s.isKey key = true) (known : s.Known v) : Bag s (s.insertEntry entries key v) := by
  by_cases mem : key ∈ entries.map (·.1)
  · rw [h.insertEntry_of_mem mem]
    constructor
    · intro entry inside
      obtain ⟨before, here, rfl⟩ := List.mem_map.mp inside
      split
      · exact isKey
      · exact bag.keys before here
    · have names : (entries.map fun entry => if entry.1 = key then (key, v) else entry).map (·.1) =
          entries.map (·.1) := by
        rw [List.map_map]
        refine List.map_congr_left fun entry _ => ?_
        by_cases same : entry.1 = key
        · simp [same]
        · simp [same]
      rw [names]
      exact bag.distinct
    · intro entry inside
      obtain ⟨before, here, rfl⟩ := List.mem_map.mp inside
      split
      · exact known
      · exact bag.known before here
  · rw [h.insertEntry_of_not_mem mem]
    constructor
    · exact List.forall_mem_append.mpr ⟨bag.keys, List.forall_mem_singleton.mpr isKey⟩
    · rw [List.map_append, List.pairwise_append]
      refine ⟨bag.distinct, List.pairwise_singleton _ _, fun first inside last here => ?_⟩
      obtain ⟨entry, held, rfl⟩ := List.mem_map.mp inside
      obtain rfl := List.mem_singleton.mp here
      rw [h entry held]
      exact decide_eq_false fun same => mem (same ▸ inside)
    · exact List.forall_mem_append.mpr ⟨bag.known, List.forall_mem_singleton.mpr known⟩

/-! ### Merging -/

/-- What merging comes to: in a store with further lists, the entries of a mapping that hold as much
as expected. -/
structure Merged (s : Store) (expected : List (Value × Held))
    (result : List (Value × Value) × Store) : Prop where
  grows : Grows s result.2
  bag : Bag result.2 result.1
  holds : result.2.heldOf result.1 = expected

theorem Tells.grows (tells : Tells s entries key) (bag : Bag s entries) (grows : Grows s t) :
    Tells t entries key :=
  fun entry mem => (grows.sameKey (bag.keys entry mem) key).trans (tells entry mem)

theorem held_newSequence (s : Store) (items : List Value) :
    (s.newSequence .list items).2.held (s.newSequence .list items).1 = .list items := by
  have made : (s.newSequence .list items).2.sequence s.sequences.size = ⟨.list, items⟩ :=
    Table.get_push_size _ _
  have items : (s.newSequence .list items).2.list? (.sequence s.sequences.size) = some items := by
    unfold list?
    dsimp only
    rw [made]
  unfold held
  rw [show (s.newSequence .list _).1 = .sequence s.sequences.size from rfl, items]

theorem merged_joined (bag : Bag s entries) (tells : Tells s entries key)
    (isKey : s.isKey key = true) (items : List Value) :
    Merged s (setHeld (s.heldOf entries) key (.list items))
      ((s.newSequence .list items).2.insertEntry entries key (s.newSequence .list items).1,
        (s.newSequence .list items).2) := by
  have grows : Grows s (s.newSequence .list items).2 := grows_newSequence s items
  have later := tells.grows bag grows
  refine ⟨grows, (bag.grows grows).insertEntry later (grows.isKey isKey) ?_, ?_⟩
  · show s.sequences.size < (s.sequences.push ⟨.list, items⟩).size
    rw [Table.size_push]
    exact Nat.lt_succ_self _
  · rw [later.heldOf_insertEntry, grows.heldOf bag.known, held_newSequence]

theorem merged_mergeEntry (bag : Bag s entries) (tells : Tells s entries key)
    (isKey : s.isKey key = true) (known : s.Known v) :
    Merged s (mergeOne (s.heldOf entries) (key, s.held v)) (mergeEntry (entries, s) (key, v)) := by
  unfold mergeOne mergeEntry
  dsimp only
  rw [isSet_held, lookup_heldOf, tells.valueAt?]
  by_cases unset : v = .null
  · rw [if_pos unset, unset]
    exact ⟨.refl s, bag, rfl⟩
  · rw [if_neg unset, if_pos (bne_iff_ne.mpr unset)]
    -- Only where two lists meet is there a new value; all other cases end here.
    have plain : Merged s (setHeld (s.heldOf entries) key (s.held v))
        (s.insertEntry entries key v, s) :=
      ⟨.refl s, bag.insertEntry tells isKey known, tells.heldOf_insertEntry s v⟩
    cases own : s.list? v with
    | none =>
      have alone : ∀ shared, (s.held v).beside shared = s.held v := by
        intro shared
        unfold held
        rw [own]
        rfl
      cases (entries.lookup key).map s.held with
      | none => exact plain
      | some shared =>
        dsimp only
        rw [alone]
        exact plain
    | some items =>
      cases found : entries.lookup key with
      | none => exact plain
      | some w =>
        cases shared : s.list? w with
        | none =>
          have stands : (s.held v).beside (s.held w) = s.held v := by
            unfold held
            rw [own, shared]
            rfl
          rw [Option.map_some, Option.bind_some, shared]
          dsimp only
          rw [stands]
          exact plain
        | some first =>
          have joined : (s.held v).beside (s.held w) = .list (first ++ items) := by
            unfold held
            rw [own, shared]
            rfl
          rw [Option.map_some, Option.bind_some, shared]
          dsimp only
          rw [joined]
          exact merged_joined bag tells isKey (first ++ items)

theorem mem_names_mergeOne {merged : List (Value × Held)} {entry : Value × Held} {other : Value}
    (mem : other ∈ (mergeOne merged entry).map (·.1)) :
    other ∈ merged.map (·.1) ∨ other = entry.1 := by
  unfold mergeOne setHeld at mem
  split at mem
  · split at mem
    · obtain ⟨held, inside, rfl⟩ := List.mem_map.mp mem
      obtain ⟨before, here, rfl⟩ := List.mem_map.mp inside
      split
      · exact .inr rfl
      · exact .inl (List.mem_map_of_mem here)
    · rw [List.map_append, List.mem_append] at mem
      exact mem.imp id List.mem_singleton.mp
  · exact .inl mem

/-- After a property has been merged, the keys of later ones are told from all others. -/
theorem Merged.tells {result : List (Value × Value) × Store} {h : Held} {other : Value}
    (merged : Merged s (mergeOne (s.heldOf entries) (key, h)) result) (bag : Bag s entries)
    (isKey : s.isKey key = true) (apart : s.sameKey key other = false)
    (tells : Tells s entries other) : Tells result.2 result.1 other := by
  intro entry mem
  have names : entry.1 ∈ (mergeOne (s.heldOf entries) (key, h)).map (·.1) := by
    rw [← merged.holds, map_fst_heldOf]
    exact List.mem_map_of_mem mem
  rcases mem_names_mergeOne names with before | here
  · rw [map_fst_heldOf] at before
    obtain ⟨first, inside, same⟩ := List.mem_map.mp before
    rw [← same, merged.grows.sameKey (bag.keys first inside)]
    exact tells first inside
  · have ne : key ≠ other := by
      rintro rfl
      rw [sameKey_self] at apart
      cases apart
    rw [here, merged.grows.sameKey isKey, apart, decide_eq_false ne]

/-- To merge the properties of an entity, as they were in an earlier store. -/
theorem merged_foldl (ownBag : Bag s own) (grows : Grows s t) (bag : Bag t entries)
    (tells : ∀ entry ∈ own, Tells t entries entry.1) :
    Merged t ((s.heldOf own).foldl mergeOne (t.heldOf entries))
      (own.foldl mergeEntry (entries, t)) := by
  induction own generalizing t entries with
  | nil => exact ⟨.refl t, bag, rfl⟩
  | cons entry rest ih =>
    obtain ⟨key, v⟩ := entry
    have isKey : s.isKey key = true := ownBag.keys _ List.mem_cons_self
    have known : s.Known v := ownBag.known _ List.mem_cons_self
    have first := merged_mergeEntry bag (tells _ List.mem_cons_self) (grows.isKey isKey)
      (known.grows grows)
    rw [grows.held known] at first
    have later := ih ownBag.tail (grows.trans first.grows) first.bag <| by
      intro other mem
      have apart : s.sameKey key other.1 = false :=
        (List.pairwise_cons.mp ownBag.distinct).1 _ (List.mem_map_of_mem mem)
      exact first.tells bag (grows.isKey isKey) ((grows.sameKey isKey _).trans apart)
        (tells other (List.mem_cons_of_mem _ mem))
    rw [first.holds] at later
    exact ⟨first.grows.trans later.grows, later.bag, later.holds⟩

theorem bag_given {shared : List (String × Value)} (nodup : (shared.map (·.1)).Nodup)
    (known : ∀ entry ∈ shared, s.Known entry.2) :
    Bag s ((shared.filter fun entry => entry.2 != .null).map fun entry =>
      (.text entry.1, entry.2)) := by
  constructor
  · intro entry mem
    obtain ⟨given, -, rfl⟩ := List.mem_map.mp mem
    rfl
  · rw [List.map_map, List.pairwise_map]
    have names : shared.Pairwise fun a b => a.1 ≠ b.1 := List.pairwise_map.mp nodup
    refine (names.filter _).imp fun {a b} ne => ?_
    dsimp only [Function.comp_apply]
    rw [sameKey_text]
    exact decide_eq_false fun same => ne (Value.text.inj same)
  · intro entry mem
    obtain ⟨given, inside, rfl⟩ := List.mem_map.mp mem
    exact known given (List.mem_filter.mp inside).1

theorem heldOf_given (s : Store) (shared : List (String × Value)) :
    s.heldOf ((shared.filter fun entry => entry.2 != .null).map fun entry =>
      (Value.text entry.1, entry.2)) =
      ((s.heldOf shared).filter (·.2.isSet)).map fun entry => (.text entry.1, entry.2) := by
  unfold heldOf
  rw [List.filter_map, List.map_map, List.map_map]
  simp only [Function.comp_def, isSet_held]

/-- Merging shared properties into those of an entity adds lists to the store, and comes to the
merge of what they hold. -/
theorem mergeShared_spec {shared : List (String × Value)} (filled : shared ≠ [])
    (nodup : (shared.map (·.1)).Nodup) (known : ∀ entry ∈ shared, s.Known entry.2)
    (bag : Bag s own) :
    Merged s (merge (s.heldOf shared) (s.heldOf own)) (mergeShared s shared own) := by
  have given := bag_given nodup known
  have tells : ∀ entry ∈ own, Tells s ((shared.filter fun entry => entry.2 != .null).map
      fun entry => (.text entry.1, entry.2)) entry.1 := by
    intro entry _ held mem
    obtain ⟨first, -, rfl⟩ := List.mem_map.mp mem
    exact sameKey_text s first.1 entry.1
  have merged := merged_foldl bag (.refl s) given tells
  rw [foldl_mergeOne (by rw [map_fst_heldOf]; exact given.nodup)
    (by rw [map_fst_heldOf]; exact bag.nodup), heldOf_given] at merged
  have some : s.heldOf shared ≠ [] := fun none => filled (List.map_eq_nil_iff.mp none)
  unfold merge
  rw [if_neg some]
  exact merged

end Store
end Infra
