import Infra.Proofs.Discovery.Coherence
import Infra.Proofs.Discovery.Pass
import Infra.Proofs.Discovery.Spent
import Infra.Proofs.Store.Shown

/-!
# Discovery again

* `Store.assignNames_again`, `Store.named_again` : names that were given are given again;
* `Store.Respelled s t n path` : the path leads to a dangling reference through a key that shows a
  reference which is named in `t` as it was not in `s`;
* `Store.resolve_again` : a resolution leaves names that the next one leaves as they are, and the
  next one fails where it did;
* `Store.discoverMemory_again` : so it is for a discovery.

The path in the message of a dangling reference is the one place where a repetition can differ: a key
that is a reference is written without the name of its entity until it has it.
-/

namespace Infra

namespace Store

variable {s t : Store} {arena : Arena} {n : Namespace}

/-! ## Names that were given -/

theorem nameEntity_of_named {id : Nat} {name : String}
    (named : id < s.entities.size → (s.entity id).name = some name) : s.nameEntity id name = s := by
  have same : s.entities.modify id (fun e => { e with name := some name }) = s.entities := by
    apply Table.modify_eq_self
    intro lt
    show { s.entity id with name := some name } = s.entity id
    rw [← named lt]
  unfold nameEntity
  rw [same]

theorem nameReference_of_named {ref : Nat} {name : String}
    (named : (s.reference ref).name = some name) : s.nameReference ref name = s := by
  have same : s.references.modify ref (fun r => { r with name := some name }) = s.references := by
    apply Table.modify_eq_self
    intro _
    show { s.reference ref with name := some name } = s.reference ref
    rw [← named]
  unfold nameReference
  rw [same]

theorem assignNames_again (named : ∀ name id, (name, .entity id) ∈ n → id < s.entities.size →
    (s.entity id).name = some name) : s.assignNames n = s := by
  unfold assignNames
  induction n with
  | nil => rfl
  | cons entry rest ih =>
    obtain ⟨name, v⟩ := entry
    have here : s.assignName (name, v) = s := by
      cases v with
      | entity id => exact nameEntity_of_named (named name id List.mem_cons_self)
      | _ => rfl
    rw [List.foldl_cons, here]
    apply ih
    intro other id mem
    exact named other id (List.mem_cons_of_mem _ mem)

theorem named_again {refs : List Nat} (named : ∀ ref ∈ refs, ∀ name,
    arena.nameOf? (s.reference ref).parent = some name → (s.reference ref).name = some name) :
    s.named arena refs = s := by
  unfold Store.named
  induction refs with
  | nil => rfl
  | cons ref rest ih =>
    obtain ⟨first, later⟩ := List.forall_mem_cons.mp named
    have here : nameKnown arena s ref = s := by
      unfold nameKnown
      cases known : arena.nameOf? (s.reference ref).parent with
      | none => rfl
      | some name => exact nameReference_of_named (first name known)
    rw [List.foldl_cons, here]
    exact ih later

/-! ## The first dangling reference -/

theorem dangling_iff (same : SameButNames s t) (v : Value) :
    Dangling arena t v ↔ Dangling arena s v := by
  unfold Dangling
  simp only [same.parent]

theorem first_unique {α : Type} {P : α → Prop} {before before' after after' : List α} {a a' : α}
    (split : before ++ a :: after = before' ++ a' :: after') (none : ∀ b ∈ before, ¬ P b) (found : P a)
    (none' : ∀ b ∈ before', ¬ P b) (found' : P a') : before = before' ∧ a = a' := by
  induction before generalizing before' with
  | nil =>
    cases before' with
    | nil => exact ⟨rfl, (List.cons.inj split).1⟩
    | cons b rest =>
      obtain ⟨rfl, -⟩ := List.cons.inj split
      exact absurd found (none' a List.mem_cons_self)
  | cons b rest ih =>
    cases before' with
    | nil =>
      obtain ⟨rfl, -⟩ := List.cons.inj split
      exact absurd found' (none b List.mem_cons_self)
    | cons b' rest' =>
      obtain ⟨rfl, tails⟩ := List.cons.inj split
      obtain ⟨rfl, same⟩ := ih tails (fun c mem => none c (List.mem_cons_of_mem _ mem))
        fun c mem => none' c (List.mem_cons_of_mem _ mem)
      exact ⟨rfl, same⟩

theorem named_named {refs refs' : List Nat}
    (h : ∀ ref ∈ refs', ref ∈ refs ∨ arena.nameOf? (s.reference ref).parent = none) :
    (s.named arena refs).named arena refs' = s.named arena refs := by
  apply named_again
  intro ref mem name known
  rw [(sameButNames_named arena s refs).parent] at known
  rcases h ref mem with inside | unknown
  · exact name_named inside known
  · rw [unknown] at known
    cases known

/-- Of the references that a walk has met when it stops at a dangling one, all but that one were
met before. -/
theorem mem_met_or_unknown {met before after : List Visit} {v : Visit}
    (found : Dangling arena s v.2.value) (split : met ++ [v] = before ++ after) {ref : Nat}
    (mem : ref ∈ referencesOf before) :
    ref ∈ referencesOf met ∨ arena.nameOf? (s.reference ref).parent = none := by
  obtain ⟨u, inside, value⟩ := mem_referencesOf.mp mem
  have onWalk : u ∈ met ++ [v] := by
    rw [split]
    exact List.mem_append_left _ inside
  rcases List.mem_append.mp onWalk with earlier | last
  · exact .inl (mem_referencesOf.mpr ⟨u, earlier, value⟩)
  · obtain rfl := List.mem_singleton.mp last
    obtain ⟨other, eq, unknown⟩ := found
    cases value.symm.trans eq
    exact .inr unknown

/-- When the walk is resolved again, the text of the way to the dangling reference is that of its
steps, as they read under the names that were given. -/
theorem Spelled.eq_pathText_named {met : List Visit} {v : Visit} {path : String}
    (found : Dangling arena s v.2.value)
    (spelled : Spelled arena (s.named arena (referencesOf met)) (met ++ [v]) v.1 v.2.steps path) :
    path = (s.named arena (referencesOf met)).pathText v.1 v.2.steps := by
  apply spelled.eq_pathText_of
  intro before after split step _
  rw [named_named fun ref mem => mem_met_or_unknown found split mem]

theorem Spelled.eq_pathText_of_kept {met : List Visit} {v : Visit} {path : String}
    (found : Dangling arena s v.2.value)
    (spelled : Spelled arena s (met ++ [v]) v.1 v.2.steps path)
    (kept : ∀ key ref, .key key ∈ v.2.steps →
      (s.named arena (referencesOf met)).Shows key (.reference ref) →
      ((s.named arena (referencesOf met)).reference ref).name = (s.reference ref).name) :
    path = (s.named arena (referencesOf met)).pathText v.1 v.2.steps := by
  apply spelled.eq_pathText_of
  intro before after split step onWay
  have same : SameButNames (s.named arena (referencesOf met)) (s.named arena (referencesOf before)) :=
    (sameButNames_named _ _ _).symm.trans (sameButNames_named _ _ _)
  apply same.stepText
  · intro id
    rw [entity_named, entity_named]
  · rintro key rfl ref shows
    apply same.reference_eq
    -- A reference named before the walk stops is one of those that have their names in the end.
    have final := kept key ref onWay shows
    rw [name_named_eq (referencesOf before)]
    split
    · next inside =>
      rcases mem_met_or_unknown found split inside with met | unknown
      · rw [name_named_eq, if_pos met]
      · rw [unknown, Option.none_or, final]
    · exact final.symm

/-! ## A resolution again -/

/-- A key on the way to a dangling reference shows a reference that is named in the second store as
it was not in the first. -/
def NamedOnWay (s t : Store) (arena : Arena) (p : Place) : Prop :=
  Dangling arena t p.value ∧ ∃ key ref, .key key ∈ p.steps ∧ t.Shows key (.reference ref) ∧
    (t.reference ref).name ≠ (s.reference ref).name

theorem Outcome.again {walk : List Visit} {u : Store} {r r' : Except Fault Unit}
    (first : Outcome arena s [] walk (t, r)) (second : Outcome arena t [] walk (u, r')) :
    u = t ∧ (r' = r ∨ ∃ v ∈ walk, NamedOnWay s t arena v.2 ∧
      (∃ path, r = .error (.failed (.dangling path none))) ∧
      r' = .error (.failed (.dangling (t.pathText v.1 v.2.steps) none))) := by
  cases first with
  | done sound =>
    have same := sameButNames_named arena s (referencesOf ([] ++ walk))
    cases second with
    | done _ => exact ⟨named_named fun ref mem => .inl mem, .inl rfl⟩
    | @dangling met rest v path split _ found _ =>
      have onWalk : v ∈ walk := by
        rw [split]
        exact List.mem_append_right _ List.mem_cons_self
      exact absurd ((dangling_iff same _).mp found) (sound v onWalk)
  | @dangling met rest v path split none found spelled =>
    have same := sameButNames_named arena s (referencesOf ([] ++ met))
    have onWalk : v ∈ walk := by
      rw [split]
      exact List.mem_append_right _ List.mem_cons_self
    cases second with
    | done sound => exact absurd ((dangling_iff same _).mpr found) (sound v onWalk)
    | @dangling met' rest' v' path' split' none' found' spelled' =>
      -- What dangles depends on parents alone, so both walks stop at the same visit.
      obtain ⟨rfl, rfl⟩ := first_unique (split.symm.trans split') none found
        (fun u mem => fun bad => none' u mem ((dangling_iff same _).mpr bad))
        ((dangling_iff same _).mp found')
      have text' := Spelled.eq_pathText_named found spelled'
      refine ⟨named_named fun ref mem => .inl mem, ?_⟩
      by_cases changed : NamedOnWay s (s.named arena (referencesOf ([] ++ met))) arena v.2
      · exact .inr ⟨v, onWalk, changed, ⟨path, rfl⟩, by rw [← text']⟩
      · have text := Spelled.eq_pathText_of_kept found spelled (by
          intro key ref onWay shows
          by_contra other
          exact changed ⟨found', key, ref, onWay, shows, other⟩)
        exact .inl (by rw [text, text'])

/-- The path leads to a dangling reference within reach of the namespace, and a key on it shows a
reference that is named in the second store as it was not in the first. -/
def Respelled (s t : Store) (n : Namespace) (path : String) : Prop :=
  ∃ name id p, (name, .entity id) ∈ n ∧ p ∈ t.reach id ∧ path = t.pathText name p.steps ∧
    NamedOnWay s t (Arena.ofNamespace n) p

/-- A resolution leaves a store that the next one leaves as it is. The next one comes to the same,
but for the text of a path on which names have been given. -/
theorem resolve_again (once : (n.map (·.2)).Nodup) {r : Except Fault Arena}
    (resolved : (s.resolve n).result = (t, r)) :
    ∃ r', (t.resolve n).result = (t, r') ∧ (r' = r ∨
      ∃ old path, r = .error (.failed (.dangling old none)) ∧
        r' = .error (.failed (.dangling path none)) ∧ Respelled s t n path) := by
  obtain ⟨⟨u, outcome⟩, first, result⟩ := outcome_resolveReferences (s.assignNames n) n none
  obtain ⟨rfl, rfl⟩ := Prod.mk.inj (resolved.symm.trans result)
  obtain ⟨visits, store : t = _⟩ := first.exists_named
  have same : SameButNames (s.assignNames n) t := by
    rw [store]
    exact sameButNames_named _ _ _
  have assigned : t.assignNames n = t := by
    apply assignNames_again
    intro name id mem made
    have before : id < s.entities.size := by
      rwa [same.entityCount, (sameButNames_assignNames s n).entityCount] at made
    rw [store, entity_named]
    exact name_assignNames_of_mem once mem before
  obtain ⟨⟨w, outcome'⟩, second, result'⟩ := outcome_resolveReferences t n none
  rw [same.walk] at second
  obtain ⟨rfl, texts⟩ := first.again second
  have again : (w.resolve n).result = (w.resolveReferences n none).result := by
    show ((w.assignNames n).resolveReferences n none).result = _
    rw [assigned]
  refine ⟨_, again.trans result', ?_⟩
  rcases texts with same_text | ⟨v, onWalk, changed, ⟨old, first_text⟩, second_text⟩
  · exact .inl (by rw [same_text])
  · refine .inr ⟨old, _, by rw [first_text]; rfl, by rw [second_text]; rfl, ?_⟩
    obtain ⟨dangles, key, ref, onWay, shows, other⟩ := changed
    obtain ⟨id, inside, own | reached⟩ := mem_walk.mp onWalk
    · -- The way to an accessor is the name of the accessor.
      obtain ⟨_, -, place⟩ := List.mem_map.mp own
      rw [← place] at onWay
      cases List.mem_singleton.mp onWay
      cases shows.eq_of_text
    · refine ⟨v.1, id, v.2, inside, ?_, rfl, dangles, key, ref, onWay, shows, ?_⟩
      · rwa [same.reach]
      · rwa [reference_assignNames] at other

end Store

/-! ## A discovery again -/

namespace Discovery

open Store (Later Respelled)

variable {s t u : Store} {units : List LoadedUnit} {n : Namespace} {g : Graph} {late : Option Failure}

theorem later_resolve {r : Except Fault Arena} (resolved : (u.resolve n).result = (t, r)) :
    Later u t := by
  apply Store.later_of_composites
  obtain ⟨v, _, result, same, -⟩ := Store.resolveReferences_cases (u.assignNames n) n none
  obtain ⟨rfl, -⟩ := Prod.mk.inj (resolved.symm.trans result)
  exact same.composites.trans (Store.sameButNames_assignNames u n).composites

/-- A path that reads otherwise after a resolution does so too after the collecting that came
before it, which gives no names. -/
theorem respelled_collect {r : Except Fault Namespace} {path : String}
    (collected : (s.collect units).result = (u, r)) (h : Respelled u t n path) :
    Respelled s t n path := by
  have same := Store.sameButProps_collect s units
  rw [collected] at same
  obtain ⟨name, id, p, mem, reached, text, dangling, key, ref, onWay, shows, other⟩ := h
  refine ⟨name, id, p, mem, reached, text, dangling, key, ref, onWay, shows, ?_⟩
  unfold Store.reference at other ⊢
  rwa [same.references] at other

/-- The pass over the same units finds in the store that it left what it found before, and leaves
the store as it is. -/
theorem Pass.again (pass : Pass s units t n g late) :
    ∃ late', Pass t units t n g late' ∧ (late' = late ∨
      ∃ old path, late = some (.dangling old none) ∧ late' = some (.dangling path none) ∧
        Respelled s t n path) := by
  cases pass with
  | clash collected => exact ⟨_, .clash (Store.collect_again collected (.refl t)), .inl rfl⟩
  | @dangling u _ _ old collected resolved =>
    have collected' := Store.collect_again collected (later_resolve resolved)
    obtain ⟨r, resolved', same | ⟨_, path, -, new, respelled⟩⟩ :=
      Store.resolve_again (Store.collect_spec collected).2 resolved
    · rw [same] at resolved'
      exact ⟨_, .dangling collected' resolved', .inl rfl⟩
    · rw [new] at resolved'
      exact ⟨_, .dangling collected' resolved',
        .inr ⟨old, path, rfl, rfl, respelled_collect collected respelled⟩⟩
  | @complete u _ _ collected resolved =>
    have collected' := Store.collect_again collected (later_resolve resolved)
    obtain ⟨r, resolved', same | ⟨_, _, failed, -⟩⟩ :=
      Store.resolve_again (Store.collect_spec collected).2 resolved
    · rw [same] at resolved'
      exact ⟨_, .complete collected' resolved', .inl rfl⟩
    · cases failed

end Discovery

namespace Store

open Discovery (loaded loadFailures)
open MemoryUnit (Units)

/-- A discovery of the same units in the store that the first one left finds the same entities under
the same names and the same dependencies, and leaves the store as it is. It fails as the first one
did. Only the path of a dangling reference may read differently, where a key on it shows a reference
that the first discovery has given a name. -/
theorem discoverMemory_again (s : Store) (units : Units) (listed : Option (List String))
    (root : String) :
    ∃ t d e,
      (s.discoverMemory units listed root).result = (t, .ok d) ∧
      (t.discoverMemory units listed root).result = (t, .ok e) ∧
      e.entities = d.entities ∧ e.dependencies = d.dependencies ∧ e.units = d.units ∧
      (e.failures = d.failures ∨ ∃ loads old path,
        d.failures = loads ++ [.dangling old none] ∧ e.failures = loads ++ [.dangling path none] ∧
        Respelled s t d.entities path) := by
  obtain ⟨t, n, g, late, pass⟩ := Discovery.exists_pass s (loaded (units.attempts listed))
  obtain ⟨late', pass', same⟩ := pass.again
  refine ⟨t, _, _, pass.ofUnits root, pass'.ofUnits root, rfl, rfl, rfl, ?_⟩
  rcases same with rfl | ⟨old, path, rfl, rfl, respelled⟩
  · exact .inl rfl
  · exact .inr ⟨_, old, path, rfl, rfl, respelled⟩

/-! ## A path that reads differently -/

/-- A bucket, and a queue that holds a mapping. The key of its entry is a reference to the bucket, and
under it are that reference and one that leads nowhere. The first may have a name already. -/
def keyedStore (name : Option String) : Store :=
  let s := (initial.newEntity .resource "Bucket" "template" "Bucket" [] [("arn", "Arn")] none).2
  let s := (s.newReference ⟨99, "template", "Arn", none⟩).2
  let (items, s) := s.newSequence .list [.reference 0, .reference 1]
  let (bag, s) := s.newMapping [(.reference 0, items)]
  let s := (s.newEntity .resource "Queue" "template" "Queue" [(.text "map", .mapping bag)] [] none).2
  match name with
  | some text => s.nameReference 0 text
  | none => s

/-- The namespace of both. -/
def keyedNamespace : Namespace := [("queue", .entity 1), ("bucket", .entity 0)]

/-- The walk of the queue takes the key before the references under it. -/
theorem resolveEntity_keyed (name : Option String) {way : String}
    (text : ((keyedStore name).assignNames keyedNamespace).pathText "queue.map"
      [.key (.reference 0)] = way) :
    let arena := Arena.ofNamespace keyedNamespace
    let t := (keyedStore (some "bucket")).assignNames keyedNamespace
    resolveEntity arena ((keyedStore name).assignNames keyedNamespace) "queue" 1 =
      (t, .error (.failed (.dangling (t.pathText way [.index 1]) none))) := by
  intro arena t
  let s := (keyedStore name).assignNames keyedNamespace
  calc resolveEntity arena s "queue" 1
    _ = resolveFrom arena s [.entity 1] [("queue", ⟨[.key (.text "map")], .mapping 1⟩)] := by
      cases name <;> rfl
    _ = resolveFrom arena s [.mapping 1, .entity 1]
        [("queue.map", ⟨[.key (.reference 0)], .sequence 0⟩)] := by
      cases name <;> exact resolveFrom_enter (List.cons_ne_nil _ _) (by decide)
    _ = resolveFrom arena s [.sequence 0, .mapping 1, .entity 1]
        [(way, ⟨[.index 0], .reference 0⟩), (way, ⟨[.index 1], .reference 1⟩)] := by
      rw [← text]
      cases name <;> exact resolveFrom_enter (List.cons_ne_nil _ _) (by decide)
    _ = resolveFrom arena t [.sequence 0, .mapping 1, .entity 1]
        [(way, ⟨[.index 1], .reference 1⟩)] := by
      cases name <;> exact resolveFrom_leaf rfl
    _ = _ := resolveFrom_leaf rfl

theorem resolve_keyed (name : Option String) {way : String}
    (text : ((keyedStore name).assignNames keyedNamespace).pathText "queue.map"
      [.key (.reference 0)] = way) :
    let t := (keyedStore (some "bucket")).assignNames keyedNamespace
    ((keyedStore name).resolve keyedNamespace).result =
      (t, .error (.failed (.dangling (t.pathText way [.index 1]) none))) := by
  intro t
  have queue : resolveEntities (Arena.ofNamespace keyedNamespace)
      ((keyedStore name).assignNames keyedNamespace) keyedNamespace.entities =
      (t, .error (.failed (.dangling (t.pathText way [.index 1]) none))) := by
    show resolveEntities _ _ [("queue", 1), ("bucket", 0)] = _
    rw [resolveEntities, resolveEntity_keyed name text]
  show (resolveReferences _ keyedNamespace none).result = _
  unfold resolveReferences
  dsimp only [Arena.orOfNamespace]
  rw [queue]

/-- The first discovery writes the key without the name of the bucket, the second one with it. -/
theorem discoverMemory_respelled :
    ¬ ∀ (s t : Store) (units : Units) (root : String) (d e : Discovery),
      (s.discoverMemory units none root).result = (t, .ok d) →
      (t.discoverMemory units none root).result = (t, .ok e) →
      e.failures.map (·.message) = d.failures.map (·.message) := by
  intro same
  let units : Units :=
    [("a.py", .exports [("queue", .entity 1)]), ("b.py", .exports [("bucket", .entity 0)])]
  let exports : List LoadedUnit := [⟨"a.py", [("queue", .entity 1)]⟩, ⟨"b.py", [("bucket", .entity 0)]⟩]
  let t := (keyedStore (some "bucket")).assignNames keyedNamespace
  have loads : loaded (units.attempts none) = exports := by cbv
  have first : Discovery.Pass (keyedStore none) (loaded (units.attempts none)) t keyedNamespace []
      (some (.dangling "queue.map.AttrRef(#1.Arn)[1]" none)) := by
    rw [loads]
    exact .dangling (u := keyedStore none) (by cbv) (resolve_keyed none rfl)
  have second : Discovery.Pass t (loaded (units.attempts none)) t keyedNamespace []
      (some (.dangling "queue.map.AttrRef(bucket.Arn)[1]" none)) := by
    rw [loads]
    exact .dangling (u := t) (by cbv) (resolve_keyed (some "bucket") rfl)
  have messages := same _ _ units "" _ _ (first.ofUnits "") (second.ofUnits "")
  have quiet : loadFailures (units.attempts none) = [] := by cbv
  dsimp only at messages
  rw [quiet] at messages
  revert messages
  decide

end Store
end Infra
