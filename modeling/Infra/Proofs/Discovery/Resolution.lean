import Infra.Discovery.Naming
import Infra.Proofs.Discovery.Arena
import Infra.Proofs.Store.Names

/-!
# Resolution against its walk

* `Store.named` : a store after some of its references have been given their names;
* `Store.Spelled` : the text of a place of a walk, each step as it reads when the walk takes it;
* `Store.Outcome` : what a resolution of the visits of a walk may come to;
* `Store.outcome_resolveFrom`, `Store.outcome_resolveEntities` : a resolution is the outcome of the
  walk through all that is within reach.
-/

namespace Infra

open Store (handle)

/-- The references that a value is. -/
def Value.references : Value → List Nat
  | .reference ref => [ref]
  | _ => []

theorem Value.mem_references {v : Value} {ref : Nat} :
    ref ∈ v.references ↔ v = .reference ref := by
  cases v <;> simp [references, eq_comm]

theorem Arena.nameOf?_zero (arena : Arena) : arena.nameOf? 0 = none := by
  unfold nameOf? entry?
  rw [Option.map_eq_none_iff, List.find?_eq_none]
  intro entry _
  simp only [handle, beq_iff_eq]
  omega

namespace Store

/-- A place of a walk, with the name of the entity where the walk began. -/
abbrev Visit := String × Place

/-- The references that a walk meets, in order. -/
def referencesOf (visits : List Visit) : List Nat := visits.flatMap (·.2.value.references)

theorem referencesOf_append (before after : List Visit) :
    referencesOf (before ++ after) = referencesOf before ++ referencesOf after :=
  List.flatMap_append

theorem mem_referencesOf {visits : List Visit} {ref : Nat} :
    ref ∈ referencesOf visits ↔ ∃ v ∈ visits, v.2.value = .reference ref := by
  unfold referencesOf
  simp only [List.mem_flatMap, Value.mem_references]

/-! ## Named references -/

variable {arena : Arena} {s t : Store}

/-- Gives a reference the name that the arena has for its entity, if it has one. -/
def nameKnown (arena : Arena) (s : Store) (ref : Nat) : Store :=
  match arena.nameOf? (s.reference ref).parent with
  | some name => s.nameReference ref name
  | none => s

/-- The store when some references have been given their names. -/
def named (arena : Arena) (s : Store) (refs : List Nat) : Store := refs.foldl (nameKnown arena) s

theorem named_append (refs more : List Nat) :
    s.named arena (refs ++ more) = (s.named arena refs).named arena more :=
  List.foldl_append

theorem sameButNames_nameKnown (arena : Arena) (s : Store) (ref : Nat) :
    SameButNames s (nameKnown arena s ref) := by
  unfold nameKnown
  split
  · exact .nameReference _ _ _
  · exact .refl _

theorem sameButNames_named (arena : Arena) (s : Store) (refs : List Nat) :
    SameButNames s (s.named arena refs) := by
  induction refs generalizing s with
  | nil => exact .refl s
  | cons ref rest ih => exact (sameButNames_nameKnown arena s ref).trans (ih _)

theorem entity_named (refs : List Nat) (id : Nat) :
    (s.named arena refs).entity id = s.entity id := by
  induction refs generalizing s with
  | nil => rfl
  | cons ref rest ih =>
    have head : (nameKnown arena s ref).entity id = s.entity id := by
      unfold nameKnown
      split <;> rfl
    exact ih.trans head

theorem lt_of_nameOf? {ref : Nat} {name : String}
    (known : arena.nameOf? (s.reference ref).parent = some name) : ref < s.references.size := by
  by_contra unmade
  have none : s.reference ref = default := get_eq_default (Nat.le_of_not_lt unmade)
  rw [none, show (default : Reference).parent = 0 from rfl, Arena.nameOf?_zero] at known
  cases known

theorem reference_nameKnown_of_ne {ref other : Nat} (ne : ref ≠ other) :
    (nameKnown arena s ref).reference other = s.reference other := by
  unfold nameKnown
  split
  · show (s.references.modify ref _).get other = _
    rw [Table.get_modify, if_neg fun h => ne h.1]
    rfl
  · rfl

theorem name_nameKnown {ref : Nat} {name : String}
    (known : arena.nameOf? (s.reference ref).parent = some name) :
    ((nameKnown arena s ref).reference ref).name = some name := by
  unfold nameKnown
  rw [known]
  show ((s.references.modify ref _).get ref).name = _
  rw [Table.get_modify, if_pos ⟨rfl, lt_of_nameOf? known⟩]

theorem reference_named_of_not_mem {refs : List Nat} {ref : Nat} (h : ref ∉ refs) :
    (s.named arena refs).reference ref = s.reference ref := by
  induction refs generalizing s with
  | nil => rfl
  | cons head rest ih =>
    obtain ⟨ne, later⟩ := List.ne_and_not_mem_of_not_mem_cons h
    exact (ih later).trans (reference_nameKnown_of_ne ne.symm)

theorem name_named {refs : List Nat} {ref : Nat} {name : String} (mem : ref ∈ refs)
    (known : arena.nameOf? (s.reference ref).parent = some name) :
    ((s.named arena refs).reference ref).name = some name := by
  induction refs generalizing s with
  | nil => cases mem
  | cons head rest ih =>
    by_cases later : ref ∈ rest
    · refine ih later ?_
      rwa [(sameButNames_nameKnown arena s head).parent]
    · obtain rfl : ref = head := (List.mem_cons.mp mem).resolve_right later
      have kept : ((nameKnown arena s ref).named arena rest).reference ref =
          (nameKnown arena s ref).reference ref := reference_named_of_not_mem later
      exact (congrArg Reference.name kept).trans (name_nameKnown known)

/-- A reference has no other name than before, unless the arena has it for its entity. -/
theorem name_of_named {refs : List Nat} {ref : Nat} {name : String}
    (h : ((s.named arena refs).reference ref).name = some name) :
    (s.reference ref).name = some name ∨ arena.nameOf? (s.reference ref).parent = some name := by
  induction refs generalizing s with
  | nil => exact .inl h
  | cons head rest ih =>
    rcases ih h with before | known
    · by_cases same : head = ref
      · subst same
        cases known : arena.nameOf? (s.reference head).parent with
        | some other =>
          rw [name_nameKnown known] at before
          exact .inr before
        | none =>
          rw [nameKnown, known] at before
          exact .inl before
      · rw [reference_nameKnown_of_ne same] at before
        exact .inl before
    · rw [(sameButNames_nameKnown arena s head).parent] at known
      exact .inr known

/-- A reference that is named has the name that the arena gives to its entity, or else the one that
it had. -/
theorem name_named_eq (refs : List Nat) (ref : Nat) :
    ((s.named arena refs).reference ref).name =
      if ref ∈ refs then (arena.nameOf? (s.reference ref).parent).or (s.reference ref).name
      else (s.reference ref).name := by
  split
  · next mem =>
    cases known : arena.nameOf? (s.reference ref).parent with
    | some name => rw [name_named mem known, Option.some_or]
    | none =>
      rw [Option.none_or]
      -- No name comes from the arena, and none is lost.
      induction refs generalizing s with
      | nil => rfl
      | cons head rest ih =>
        have kept : ((nameKnown arena s head).reference ref) = s.reference ref := by
          by_cases same : head = ref
          · rw [nameKnown, same, known]
          · exact reference_nameKnown_of_ne same
        by_cases later : ref ∈ rest
        · have next := ih (s := nameKnown arena s head) later (by rw [kept, known])
          rwa [kept] at next
        · exact congrArg Reference.name ((reference_named_of_not_mem later).trans kept)
  · next new => rw [reference_named_of_not_mem new]

/-! ## Texts and outcomes of walks -/

/-- A value is a reference to an entity that the arena does not know. -/
def Dangling (arena : Arena) (s : Store) (v : Value) : Prop :=
  ∃ ref, v = .reference ref ∧ arena.nameOf? (s.reference ref).parent = none

/-- The text of the way to a place of a walk. Each step is written as it reads when the walk takes
it: the references met before have their names. -/
inductive Spelled (arena : Arena) (s : Store) (visits : List Visit) (name : String) :
    List Step → String → Prop
  | root : Spelled arena s visits name [] name
  | step {before after : List Visit} {p : Place} {steps : List Step} {last : Step} {path : String} :
    visits = before ++ (name, p) :: after → p.steps = steps ++ [last] →
      Spelled arena s visits name steps path →
      Spelled arena s visits name p.steps
        (path ++ (s.named arena (referencesOf before)).stepText last)

theorem Spelled.mono {visits : List Visit} {name : String} {steps : List Step} {path : String}
    (h : Spelled arena s visits name steps path) (more : List Visit) :
    Spelled arena s (visits ++ more) name steps path := by
  induction h with
  | root => exact .root
  | step split last _ ih => exact .step (by rw [split, List.append_assoc, List.cons_append]) last ih

/-- Where each step reads as it does in one store, the text of a way is that of its steps there. -/
theorem Spelled.eq_pathText_of {visits : List Visit} {name : String} {steps : List Step}
    {path : String} (h : Spelled arena s visits name steps path)
    (reads : ∀ before after, visits = before ++ after → ∀ step ∈ steps,
      (s.named arena (referencesOf before)).stepText step = t.stepText step) :
    path = t.pathText name steps := by
  induction h with
  | root => simp [pathText]
  | step split last _ ih =>
    rw [last] at reads ⊢
    rw [reads _ _ split _ (by simp),
      ih fun before after eq step mem => reads before after eq step (by simp [mem])]
    simp [pathText, String.join_append, String.append_assoc]

/-- What the resolution of the visits of a walk comes to, when some were resolved before: each
reference gets its name, or those before the first dangling one, which is reported where it is. -/
inductive Outcome (arena : Arena) (s : Store) (before walk : List Visit) :
    Store × Except Fault Unit → Prop
  | done : (∀ v ∈ walk, ¬ Dangling arena s v.2.value) →
      Outcome arena s before walk (s.named arena (referencesOf (before ++ walk)), .ok ())
  | dangling {met rest : List Visit} {v : Visit} {path : String} :
      walk = met ++ v :: rest → (∀ u ∈ met, ¬ Dangling arena s u.2.value) →
      Dangling arena s v.2.value →
      Spelled arena s (before ++ met ++ [v]) v.1 v.2.steps path →
      Outcome arena s before walk
        (s.named arena (referencesOf (before ++ met)), .error (.failed (.dangling path none)))

/-- A resolution names some of the references and does nothing else. -/
theorem Outcome.exists_named {before walk : List Visit} {r : Store × Except Fault Unit}
    (h : Outcome arena s before walk r) :
    ∃ visits, r.1 = s.named arena (referencesOf visits) := by
  cases h with
  | done _ => exact ⟨_, rfl⟩
  | dangling _ _ _ _ => exact ⟨_, rfl⟩

theorem Outcome.nil {before : List Visit} :
    Outcome arena s before [] (s.named arena (referencesOf before), .ok ()) := by
  have done : Outcome arena s before [] (s.named arena (referencesOf (before ++ [])), .ok ()) :=
    .done (by simp)
  rwa [List.append_nil] at done

theorem Outcome.first {before rest : List Visit} {v : Visit} {path : String}
    (found : Dangling arena s v.2.value)
    (spelled : Spelled arena s (before ++ [v]) v.1 v.2.steps path) :
    Outcome arena s before (v :: rest)
      (s.named arena (referencesOf before), .error (.failed (.dangling path none))) := by
  have stop : Outcome arena s before ([] ++ v :: rest)
      (s.named arena (referencesOf (before ++ [])), .error (.failed (.dangling path none))) :=
    .dangling rfl (by simp) found (by rwa [List.append_nil])
  rwa [List.append_nil] at stop

theorem Outcome.cons {before walk : List Visit} {v : Visit} {r : Store × Except Fault Unit}
    (sound : ¬ Dangling arena s v.2.value) (h : Outcome arena s (before ++ [v]) walk r) :
    Outcome arena s before (v :: walk) r := by
  cases h with
  | done none =>
    rw [List.append_assoc, List.singleton_append]
    exact .done (List.forall_mem_cons.mpr ⟨sound, none⟩)
  | @dangling met rest u path split none found spelled =>
    have shift : before ++ [v] ++ met = before ++ v :: met := by simp
    rw [shift] at spelled ⊢
    exact .dangling (by rw [split, List.cons_append])
      (List.forall_mem_cons.mpr ⟨sound, none⟩) found spelled

theorem Outcome.append {before walk next : List Visit} {r : Store × Except Fault Unit}
    (sound : ∀ v ∈ walk, ¬ Dangling arena s v.2.value)
    (h : Outcome arena s (before ++ walk) next r) : Outcome arena s before (walk ++ next) r := by
  induction walk generalizing before with
  | nil => simpa using h
  | cons v rest ih =>
    obtain ⟨first, later⟩ := List.forall_mem_cons.mp sound
    exact .cons first (ih later (by simpa using h))

theorem Outcome.stop {before walk next : List Visit} {fault : Fault}
    (h : Outcome arena s before walk (t, .error fault)) :
    Outcome arena s before (walk ++ next) (t, .error fault) := by
  cases h with
  | dangling split none found spelled =>
    exact .dangling (by rw [split, List.append_assoc, List.cons_append]) none found spelled

/-! ## One walk -/

/-- A place that waits to be resolved stands for a place of the walk: it goes on by its last step
from the text of the way there. -/
def StandsFor (arena : Arena) (s : Store) (visits : List Visit) (name : String)
    (pending : String × Place) (p : Place) : Prop :=
  ∃ steps last, pending.2 = ⟨[last], p.value⟩ ∧ p.steps = steps ++ [last] ∧
    Spelled arena s visits name steps pending.1

theorem StandsFor.value {visits : List Visit} {name base : String} {p q : Place}
    (h : StandsFor arena s visits name (base, q) p) : q.value = p.value := by
  obtain ⟨steps, last, rfl : q = _, -, -⟩ := h
  rfl

theorem StandsFor.mono {visits : List Visit} {name : String} {pending : String × Place} {p : Place}
    (h : StandsFor arena s visits name pending p) (more : List Visit) :
    StandsFor arena s (visits ++ more) name pending p := by
  obtain ⟨steps, last, eq, split, spelled⟩ := h
  exact ⟨steps, last, eq, split, spelled.mono more⟩

theorem StandsFor.spelled {visits : List Visit} {name base : String} {p q : Place}
    (h : StandsFor arena s visits name (base, q) p) :
    Spelled arena s (visits ++ [(name, p)]) name p.steps
      ((s.named arena (referencesOf visits)).pathText base q.steps) := by
  obtain ⟨steps, last, eq, split, spelled⟩ := h
  have text : (s.named arena (referencesOf visits)).pathText base q.steps =
      base ++ (s.named arena (referencesOf visits)).stepText last := by
    rw [show q.steps = [last] from congrArg Place.steps eq]
    simp [pathText]
  rw [text]
  exact .step rfl split (spelled.mono _)

theorem single_of_mem_contents {v : Value} {q : Place} (h : q ∈ s.contents v) :
    ∃ last, q.steps = [last] := by
  have entries : ∀ l : List (Value × Value), q ∈ entrySteps l → ∃ last, q.steps = [last] := by
    intro l mem
    obtain ⟨entry, -, rfl⟩ := List.mem_map.mp mem
    exact ⟨_, rfl⟩
  match v with
  | .sequence _ =>
    obtain ⟨item, -, rfl⟩ := List.mem_map.mp h
    exact ⟨_, rfl⟩
  | .mapping _ => exact entries _ h
  | .entity e =>
    cases kind : (s.entity e).kind with
    | property => exact entries _ (contents_property kind ▸ h)
    | resource =>
      rw [contents_resource kind] at h
      cases h
  | .null | .bool _ | .int _ | .float _ | .text _ | .bytes _ | .path _ | .moment _ | .module
  | .function | .reference _ | .output _ | .intrinsic _ | .constructor _ | .definition _
  | .composite _ => cases h

theorem resolveValue_of_not_dangling {v : Value} (path : String) {refs : List Nat}
    (sound : ¬ Dangling arena s v) :
    resolveValue arena (s.named arena refs) path v =
      .ok (s.named arena (refs ++ v.references)) := by
  have parent := (sameButNames_named arena s refs).parent
  rw [named_append]
  cases v with
  | reference ref =>
    cases known : arena.nameOf? (s.reference ref).parent with
    | none => exact absurd ⟨ref, rfl, known⟩ sound
    | some name =>
      have here : arena.nameOf? ((s.named arena refs).reference ref).parent = some name := by
        rw [parent, known]
      show _ = Except.ok (nameKnown arena (s.named arena refs) ref)
      simp only [resolveValue, nameKnown, here]
  | _ => rfl

theorem resolveValue_of_dangling {v : Value} (path : String) {refs : List Nat}
    (dangling : Dangling arena s v) :
    resolveValue arena (s.named arena refs) path v = .error (.failed (.dangling path none)) := by
  obtain ⟨ref, rfl, unknown⟩ := dangling
  have parent := (sameButNames_named arena s refs).parent ref
  simp [resolveValue, parent, unknown]

theorem resolveFrom_leaf {entered : List Value} {base : String} {q : Place}
    {rest : List (String × Place)} (leaf : s.contents q.value = []) :
    resolveFrom arena s entered ((base, q) :: rest) =
      match resolveValue arena s (s.pathText base q.steps) q.value with
      | .ok s' => resolveFrom arena s' entered rest
      | .error fault => (s, .error fault) := by
  rw [resolveFrom, dif_pos leaf]
  split <;> next eq => rw [eq]

theorem resolveFrom_again {entered : List Value} {base : String} {q : Place}
    {rest : List (String × Place)} (inner : s.contents q.value ≠ [])
    (again : entered.contains q.value) :
    resolveFrom arena s entered ((base, q) :: rest) = resolveFrom arena s entered rest := by
  rw [resolveFrom, dif_neg inner, dif_pos again]

theorem resolveFrom_enter {entered : List Value} {base : String} {q : Place}
    {rest : List (String × Place)} (inner : s.contents q.value ≠ [])
    (new : ¬ entered.contains q.value) :
    resolveFrom arena s entered ((base, q) :: rest) =
      resolveFrom arena s (q.value :: entered)
        ((s.contents q.value).map (Prod.mk (s.pathText base q.steps)) ++ rest) := by
  rw [resolveFrom, dif_neg inner, dif_neg new]

/-- Only references can dangle, and a container is none. -/
theorem not_dangling_of_contents {v : Value} (inner : s.contents v ≠ []) :
    ¬ Dangling arena s v := by
  rintro ⟨ref, rfl, -⟩
  exact inner rfl

theorem references_of_contents {v : Value} (inner : s.contents v ≠ []) : v.references = [] := by
  cases v with
  | reference ref => exact absurd rfl inner
  | _ => rfl

theorem standing_cons {name : String} {before : List Visit} {pending : List (String × Place)}
    {p : Place} {rest : List Place}
    (standing : List.Forall₂ (StandsFor arena s before name) pending (p :: rest)) :
    ∃ base q later, pending = (base, q) :: later ∧ StandsFor arena s before name (base, q) p ∧
      List.Forall₂ (StandsFor arena s before name) later rest ∧ q.value = p.value ∧
      (s.named arena (referencesOf before)).contents q.value = s.contents p.value := by
  obtain ⟨⟨base, q⟩, later, here, tail, rfl⟩ := List.forall₂_cons_right_iff.mp standing
  refine ⟨base, q, later, rfl, here, tail, here.value, ?_⟩
  rw [(sameButNames_named arena s _).contents, here.value]

/-- Resolving from places that stand for those of a walk is the outcome of the walk. -/
theorem outcome_resolveFrom (arena : Arena) (s : Store) (name : String) {before : List Visit}
    {entered : List Value} {pending : List (String × Place)} {places : List Place}
    (standing : List.Forall₂ (StandsFor arena s before name) pending places) :
    Outcome arena s before ((s.reachFrom entered places).map (Prod.mk name))
      (resolveFrom arena (s.named arena (referencesOf before)) entered pending) := by
  induction entered, places using reachFrom.induct (s := s) generalizing before pending with
  | case1 entered =>
    cases standing
    rw [reachFrom, resolveFrom]
    exact .nil
  | case2 entered p rest leaf ih =>
    obtain ⟨base, q, later, rfl, here, tail, value, contents⟩ := standing_cons standing
    rw [reachFrom, dif_pos leaf, List.map_cons, resolveFrom_leaf (by rwa [contents]), value]
    by_cases dangling : Dangling arena s p.value
    · rw [resolveValue_of_dangling _ dangling]
      exact .first dangling here.spelled
    · have refs : referencesOf before ++ p.value.references =
          referencesOf (before ++ [(name, p)]) := by
        simp [referencesOf]
      rw [resolveValue_of_not_dangling _ dangling, refs]
      exact .cons dangling (ih (tail.imp fun _ _ h => h.mono _))
  | case3 entered p rest inner again ih =>
    obtain ⟨base, q, later, rfl, here, tail, value, contents⟩ := standing_cons standing
    rw [reachFrom, dif_neg inner, dif_pos again,
      resolveFrom_again (by rwa [contents]) (by rwa [value])]
    exact ih tail
  | case4 entered p rest inner new ih =>
    obtain ⟨base, q, later, rfl, here, tail, value, contents⟩ := standing_cons standing
    rw [reachFrom, dif_neg inner, dif_neg new, List.map_cons,
      resolveFrom_enter (by rwa [contents]) (by rwa [value]), contents, value]
    have refs : referencesOf before = referencesOf (before ++ [(name, p)]) := by
      rw [referencesOf_append]
      simp [referencesOf, references_of_contents inner]
    have inside : List.Forall₂ (StandsFor arena s (before ++ [(name, p)]) name)
        ((s.contents p.value).map
          (Prod.mk ((s.named arena (referencesOf before)).pathText base q.steps)))
        ((s.contents p.value).map (Place.extend p)) := by
      rw [List.forall₂_map_left_iff, List.forall₂_map_right_iff, List.forall₂_same]
      intro content mem
      obtain ⟨last, steps⟩ := single_of_mem_contents mem
      refine ⟨p.steps, last, ?_, by rw [Place.extend, steps], here.spelled⟩
      rw [← steps]
      rfl
    refine .cons (not_dangling_of_contents inner) ?_
    rw [refs] at inside ⊢
    exact ih (List.rel_append inside (tail.imp fun _ _ h => h.mono _))

/-! ## A namespace -/

/-- The visits that the resolution of a named entity makes: its accessors, then what is within its
reach. -/
def visitsOf (s : Store) (entry : String × Nat) : List Visit :=
  (s.accessorSteps entry.2 ++ s.reach entry.2).map (Prod.mk entry.1)

/-- The visits that the resolution of a namespace makes, in order. -/
def walk (s : Store) (n : Namespace) : List Visit := n.entities.flatMap s.visitsOf

theorem SameButNames.accessorSteps (h : SameButNames s t) (id : Nat) :
    t.accessorSteps id = s.accessorSteps id := by
  unfold Store.accessorSteps
  rw [h.accessors]

theorem SameButNames.visitsOf (h : SameButNames s t) (entry : String × Nat) :
    t.visitsOf entry = s.visitsOf entry := by
  unfold Store.visitsOf
  rw [h.accessorSteps, h.reach]

theorem SameButNames.walk (h : SameButNames s t) (n : Namespace) : t.walk n = s.walk n := by
  unfold Store.walk
  rw [funext h.visitsOf]

/-- Values that nothing leads on from are met in order, before the walk goes on. -/
theorem reachFrom_leaves_append {entered : List Value} {leaves places : List Place}
    (h : ∀ p ∈ leaves, s.contents p.value = []) :
    s.reachFrom entered (leaves ++ places) = leaves ++ s.reachFrom entered places := by
  induction leaves with
  | nil => rfl
  | cons p rest ih =>
    obtain ⟨first, later⟩ := List.forall_mem_cons.mp h
    rw [List.cons_append, reachFrom, dif_pos first, ih later, List.cons_append]

theorem contents_accessorSteps {id : Nat} {p : Place} (h : p ∈ s.accessorSteps id) :
    s.contents p.value = [] := by
  obtain ⟨own, -, rfl⟩ := List.mem_map.mp h
  rfl

theorem outcome_resolveEntity (arena : Arena) (s : Store) (before : List Visit) (name : String)
    (id : Nat) :
    Outcome arena s before (s.visitsOf (name, id))
      (resolveEntity arena (s.named arena (referencesOf before)) name id) := by
  have same := sameButNames_named arena s (referencesOf before)
  unfold resolveEntity visitsOf reach
  rw [same.accessorSteps, same.props, ← reachFrom_leaves_append fun _ => contents_accessorSteps]
  refine outcome_resolveFrom arena s name ?_
  rw [List.forall₂_map_left_iff, List.forall₂_same]
  intro p mem
  have single : ∃ last, p.steps = [last] := by
    rcases List.mem_append.mp mem with own | prop
    · obtain ⟨_, -, rfl⟩ := List.mem_map.mp own
      exact ⟨_, rfl⟩
    · obtain ⟨_, -, rfl⟩ := List.mem_map.mp prop
      exact ⟨_, rfl⟩
  obtain ⟨last, steps⟩ := single
  exact ⟨[], last, by rw [← steps], by rw [steps, List.nil_append], .root⟩

theorem outcome_resolveEntities (arena : Arena) (s : Store) (before : List Visit)
    (entries : List (String × Nat)) :
    Outcome arena s before (entries.flatMap s.visitsOf)
      (resolveEntities arena (s.named arena (referencesOf before)) entries) := by
  induction entries generalizing before with
  | nil =>
    rw [resolveEntities]
    exact .nil
  | cons entry rest ih =>
    obtain ⟨name, id⟩ := entry
    have first := outcome_resolveEntity arena s before name id
    rw [resolveEntities, List.flatMap_cons]
    cases here : resolveEntity arena (s.named arena (referencesOf before)) name id with
    | mk t r =>
      rw [here] at first
      cases r with
      | error fault => exact first.stop
      | ok _ =>
        cases first with
        | done sound => exact .append sound (ih _)

/-- The resolution of a namespace is the outcome of its walk. -/
theorem outcome_resolveReferences (s : Store) (n : Namespace) (given : Option Arena) :
    let arena := Arena.orOfNamespace given n
    ∃ r, Outcome arena s [] (s.walk n) r ∧
      (s.resolveReferences n given).result = (r.1, r.2.map fun _ => arena) := by
  intro arena
  refine ⟨_, outcome_resolveEntities arena s [] n.entities, ?_⟩
  show (resolveReferences s n given).result =
    ((resolveEntities arena s n.entities).1, (resolveEntities arena s n.entities).2.map _)
  unfold resolveReferences
  cases eq : resolveEntities arena s n.entities with
  | mk t r => cases r <;> simp only [arena, eq] <;> rfl

end Store
end Infra
