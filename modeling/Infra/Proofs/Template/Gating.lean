import Infra.Proofs.Discovery.Naming
import Infra.Proofs.Template.Rendering
import Mathlib

/-!
# References that a rendering finds without a name

A resolution names the references that the properties of entities lead to. A rendering looks up
more: the values of interpolated texts, and the parameters of child projects.

* `Fault.Unnamed` : the fault of a reference without a name;
* `Store.LooksUp` : the references whose names the rendering of a value looks up;
* `Store.Lacks` : one of them has no name; `Template.lacks_of_renderTo` : only then has the value
  no form for want of a name;
* `Template.entityLacks_of_serialize` : and so for the template of a namespace;
* `Template.resolve_gates_serialize` : after a resolution, only in an interpolated text or in the
  parameters of a child project can a name be missing.

Mathlib is imported whole, for the equations of its functions by which closed stores are evaluated.
-/

namespace Infra

/-! ## Faults -/

/-- The fault of a reference to the attribute that has no name, met as a value or in a text. -/
def Fault.Unnamed (fault : Fault) (attr : String) : Prop :=
  fault = .failed (.serialization
      ("Cannot serialize attribute reference \"" ++ attr ++ "\": logical name not set")) ∨
    fault = .failed (.serialization
      ("Cannot interpolate attribute reference \"" ++ attr ++ "\": logical name not set"))

theorem Failure.serialization_inj {a b : String} : serialization a = serialization b ↔ a = b :=
  ⟨congrArg Failure.message, congrArg serialization⟩

theorem Fault.unnamed_failed_iff {message attr : String} :
    Unnamed (.failed (.serialization message)) attr ↔
      message = "Cannot serialize attribute reference \"" ++ attr ++ "\": logical name not set" ∨
        message =
          "Cannot interpolate attribute reference \"" ++ attr ++ "\": logical name not set" := by
  simp only [Unnamed, Fault.failed.injEq, Failure.serialization_inj]

theorem Fault.not_unnamed {fault : Fault} {attr : String}
    (h : ∀ message, fault ≠ .failed (.serialization message)) : ¬ fault.Unnamed attr := by
  rintro (eq | eq)
  · exact h _ eq
  · exact h _ eq

namespace Json

theorem intText_ne_failed {n : Int} {failure : Failure} :
    intText n ≠ .error (.failed failure) := by
  unfold intText
  split <;> nofun

theorem scalarText_ne_failed {v : Value} {failure : Failure} :
    scalarText v ≠ .error (.failed failure) := by
  cases v with
  | int n => exact intText_ne_failed
  | _ => nofun

theorem keyText_ne_failed {v : Value} {failure : Failure} :
    keyText v ≠ .error (.failed failure) := by
  cases v with
  | int n => exact intText_ne_failed
  | _ => nofun

mutual

/-- A tree without a written form is refused for its type or its size, and by no failure. -/
theorem writeAt_ne_failed (l : Layout) (failure : Failure) (depth : Nat) :
    ∀ d : Datum, writeAt l depth d ≠ .error (.failed failure)
  | .leaf _ => scalarText_ne_failed
  | .list items => fun h =>
    writeItems_ne_failed l failure (depth + 1) items (map_eq_error_iff.mp h)
  | .table entries => fun h =>
    writeEntries_ne_failed l failure (depth + 1) entries (map_eq_error_iff.mp h)

theorem writeItems_ne_failed (l : Layout) (failure : Failure) (depth : Nat) :
    ∀ items : List Datum, writeItems l depth items ≠ .error (.failed failure)
  | [] => nofun
  | item :: rest => fun h => by
    rcases bind_eq_error_iff.mp h with first | ⟨_, -, later⟩
    · exact writeAt_ne_failed l failure depth item first
    · rcases bind_eq_error_iff.mp later with others | ⟨_, -, never⟩
      · exact writeItems_ne_failed l failure depth rest others
      · cases never

theorem writeEntries_ne_failed (l : Layout) (failure : Failure) (depth : Nat) :
    ∀ entries : List (Value × Datum), writeEntries l depth entries ≠ .error (.failed failure)
  | [] => nofun
  | (key, value) :: rest => fun h => by
    rcases bind_eq_error_iff.mp h with name | ⟨_, -, later⟩
    · exact keyText_ne_failed name
    · rcases bind_eq_error_iff.mp later with first | ⟨_, -, later⟩
      · exact writeAt_ne_failed l failure depth value first
      · rcases bind_eq_error_iff.mp later with others | ⟨_, -, never⟩
        · exact writeEntries_ne_failed l failure depth rest others
        · cases never

end

theorem not_unnamed_of_document {d : Datum} {fault : Fault} {attr : String}
    (h : document d = .error fault) : ¬ fault.Unnamed attr := by
  refine Fault.not_unnamed fun message eq => ?_
  subst eq
  exact writeAt_ne_failed _ _ _ _ h

end Json

namespace Store

variable {s : Store}

/-! ## References that are looked up -/

/-- The text of the interpolation `i` shows the reference: it is one of the values that have a
part before them, or the text of one of these shows it. -/
inductive ShownIn (s : Store) (ref : Nat) : Nat → Prop
  | value {i : Nat} {parts : List String} {values : List Value} :
    s.intrinsic i = .interpolation parts values → .reference ref ∈ values.take parts.length →
      ShownIn s ref i
  | nested {i j : Nat} {parts : List String} {values : List Value} :
    s.intrinsic i = .interpolation parts values → .intrinsic j ∈ values.take parts.length →
      ShownIn s ref j → ShownIn s ref i

/-- The rendering of a value looks up the name of a reference: the value leads to it, or to an
interpolated text that shows it. -/
def LooksUp (s : Store) (v : Value) (ref : Nat) : Prop :=
  s.Within v (.reference ref) ∨ ∃ i, s.Within v (.intrinsic i) ∧ s.ShownIn ref i

/-- A reference to the attribute that the rendering of a value looks up has no name. -/
def Lacks (s : Store) (v : Value) (attr : String) : Prop :=
  ∃ ref, s.LooksUp v ref ∧ (s.reference ref).name = none ∧ (s.reference ref).attr = attr

theorem Lacks.of_content {v : Value} {q : Place} {attr : String} (mem : q ∈ s.contents v)
    (h : s.Lacks q.value attr) : s.Lacks v attr := by
  obtain ⟨ref, looksUp, rest⟩ := h
  refine ⟨ref, ?_, rest⟩
  rcases looksUp with within | ⟨i, within, shown⟩
  · exact .inl (within.of_content mem)
  · exact .inr ⟨i, within.of_content mem, shown⟩

theorem Lacks.of_item {q : Nat} {v : Value} {attr : String} (mem : v ∈ (s.sequence q).items)
    (h : s.Lacks v attr) : s.Lacks (.sequence q) attr := by
  obtain ⟨p, onStep, rfl⟩ := exists_mem_itemSteps mem
  exact h.of_content onStep

theorem Lacks.of_entry {m : Nat} {entry : Value × Value} {attr : String} (mem : entry ∈ s.mapping m)
    (h : s.Lacks entry.2 attr) : s.Lacks (.mapping m) attr := by
  obtain ⟨p, onStep, eq⟩ := exists_mem_entrySteps mem
  rw [← eq] at h
  exact h.of_content onStep

theorem Lacks.of_property {e : Nat} {entry : Value × Value} {attr : String}
    (kind : (s.entity e).kind = .property) (mem : entry ∈ s.props e) (h : s.Lacks entry.2 attr) :
    s.Lacks (.entity e) attr := by
  obtain ⟨p, onStep, eq⟩ := exists_mem_entrySteps mem
  rw [← eq] at h
  exact h.of_content (by rwa [contents_property kind])

/-- A text has no form for want of a name only if it shows a reference without one. -/
theorem lacks_of_valueTextTo {style : Interpolation} {depth : Nat} {v : Value} {fault : Fault}
    {attr : String} (h : s.valueTextTo style depth v = .error fault)
    (unnamed : fault.Unnamed attr) :
    ∃ ref, (v = .reference ref ∨ ∃ i, v = .intrinsic i ∧ s.ShownIn ref i) ∧
      (s.reference ref).name = none ∧ (s.reference ref).attr = attr := by
  induction depth generalizing style v with
  | zero =>
    cases h
    exact absurd unnamed (Fault.not_unnamed nofun)
  | succ depth ih =>
    unfold valueTextTo at h
    cases v with
    | reference ref =>
      dsimp only at h
      split at h
      · cases h
      · next none =>
        cases h
        rw [Fault.unnamed_failed_iff] at unnamed
        exact ⟨ref, .inl rfl, none, by simpa [← String.toList_inj] using unnamed⟩
    | intrinsic i =>
      dsimp only at h
      split at h
      · cases h
      · next parts values form =>
        rcases bind_eq_error_iff.mp h with failed | ⟨_, -, never⟩
        · obtain ⟨w, mem, failed⟩ := exists_of_mapM_eq_error failed
          obtain ⟨ref, shown, lacks⟩ := ih failed
          refine ⟨ref, .inr ⟨i, rfl, ?_⟩, lacks⟩
          rcases shown with rfl | ⟨j, rfl, shown⟩
          · exact .value form mem
          · exact .nested form mem shown
        · cases never
    | entity e =>
      cases h
      rw [Fault.unnamed_failed_iff] at unnamed
      simp [← String.toList_inj] at unnamed
    | _ => cases h

theorem lacks_of_intrinsicForm {i : Nat} {fault : Fault} {attr : String}
    (h : s.intrinsicForm i = .error fault) (unnamed : fault.Unnamed attr) :
    s.Lacks (.intrinsic i) attr := by
  unfold intrinsicForm at h
  split at h
  · cases h
  · next parts values form =>
    rcases bind_eq_error_iff.mp h with failed | ⟨_, -, never⟩
    · obtain ⟨w, mem, failed⟩ := exists_of_mapM_eq_error (map_eq_error_iff.mp failed)
      obtain ⟨ref, shown, lacks⟩ := lacks_of_valueTextTo failed unnamed
      refine ⟨ref, .inr ⟨i, .self, ?_⟩, lacks⟩
      rcases shown with rfl | ⟨j, rfl, shown⟩
      · exact .value form mem
      · exact .nested form mem shown
    · cases never

end Store

namespace Template

open Store

variable {s : Store} {plan : Plan}

/-! ## Forms of values -/

theorem not_unnamed_of_renderedKey {key : Value} {fault : Fault} {attr : String}
    (h : renderedKey s key = .error fault) : ¬ fault.Unnamed attr := by
  refine Fault.not_unnamed fun message eq => ?_
  subst eq
  unfold renderedKey at h
  split at h
  · cases h
  · dsimp only at h
    split at h
    · cases h
    · split at h <;> cases h
  · split at h <;> cases h

/-- Entries have no form for want of a name only if a value among them has none. -/
theorem exists_of_renderEntries_eq_error {key : Value → Except Fault Value}
    {render : Value → Except Fault Datum} {entries : List (Value × Value)} {fault : Fault}
    {attr : String} (keys : ∀ k, key k = .error fault → ¬ fault.Unnamed attr)
    (h : renderEntries key render entries = .error fault) (unnamed : fault.Unnamed attr) :
    ∃ entry ∈ entries, render entry.2 = .error fault := by
  obtain ⟨entry, mem, own | value⟩ := renderEntries_eq_error h
  · exact absurd unnamed (keys _ own)
  · exact ⟨entry, mem, value⟩

theorem exists_of_renderProps_eq_error {render : Value → Except Fault Datum}
    {entries : List (Value × Value)} {fault : Fault} {attr : String}
    (h : renderProps s render entries = .error fault) (unnamed : fault.Unnamed attr) :
    ∃ entry ∈ entries, render entry.2 = .error fault := by
  rcases bind_eq_error_iff.mp h with failed | ⟨_, -, never⟩
  · obtain ⟨entry, mem, failed⟩ := exists_of_renderEntries_eq_error
      (fun _ => not_unnamed_of_renderedKey) failed unnamed
    exact ⟨entry, (List.mem_filter.mp mem).1, failed⟩
  · cases never

/-- A value has no form for want of a name only if its rendering looks up a reference without
one. -/
theorem lacks_of_renderTo {names : List String} {convert : Bool} {cross : CrossReference}
    {depth : Nat} {v : Value} {fault : Fault} {attr : String}
    (h : s.renderTo (visitor s names convert cross) depth v = .error fault)
    (unnamed : fault.Unnamed attr) : s.Lacks v attr := by
  induction depth generalizing v with
  | zero =>
    cases h
    exact absurd unnamed (Fault.not_unnamed nofun)
  | succ depth ih =>
    have keys : ∀ k, (visitor s names convert cross).key k = .error fault →
        ¬ fault.Unnamed attr := by
      intro k failed
      simp only [visitor] at failed
      split at failed
      · exact not_unnamed_of_renderedKey failed
      · cases failed
    unfold renderTo at h
    cases v with
    | reference ref =>
      dsimp only at h
      split at h
      · cases h
      · next none =>
        cases h
        rw [Fault.unnamed_failed_iff] at unnamed
        exact ⟨ref, .inl .self, none, by simpa [← String.toList_inj] using unnamed⟩
    | intrinsic i => exact lacks_of_intrinsicForm h unnamed
    | output o => cases h
    | entity e =>
      cases kind : (s.entity e).kind with
      | resource =>
        cases named : (s.entity e).name with
        | some name =>
          simp only [kind, named] at h
          cases h
        | none =>
          simp only [kind, named] at h
          cases h
          rw [Fault.unnamed_failed_iff] at unnamed
          simp [← String.toList_inj] at unnamed
      | property =>
        simp only [kind] at h
        rcases bind_eq_error_iff.mp h with failed | ⟨_, -, never⟩
        · obtain ⟨entry, mem, failed⟩ := exists_of_renderProps_eq_error failed unnamed
          exact (ih failed).of_property kind mem
        · cases never
    | composite c =>
      cases h
      rw [Fault.unnamed_failed_iff] at unnamed
      simp [← String.toList_inj] at unnamed
    | sequence q =>
      obtain ⟨item, mem, failed⟩ := exists_of_mapM_eq_error (map_eq_error_iff.mp h)
      exact (ih failed).of_item mem
    | mapping m =>
      rcases bind_eq_error_iff.mp h with failed | ⟨_, -, never⟩
      · obtain ⟨entry, mem, failed⟩ := exists_of_renderEntries_eq_error keys failed unnamed
        exact (ih failed).of_entry mem
      · cases never
    | _ => cases h

/-! ## Forms of entities -/

theorem reaches_of_within {id : Nat} {w : Value} (h : s.Within (.mapping (s.entity id).props) w) :
    w = .mapping (s.entity id).props ∨ s.Reaches id w := by
  induction h with
  | self => exact .inl rfl
  | inside _ mem ih =>
    rcases ih with rfl | reaches
    · obtain ⟨key, inside⟩ := value_of_mem_entrySteps mem
      exact .inr (.prop inside)
    · exact .inr (reaches.step mem)

/-- The rendering of an entity looks up the reference where a resolution does not look: in an
interpolated text that its properties lead to, or in the parameters of a child project. -/
def Hides (s : Store) (id ref : Nat) : Prop :=
  (∃ i, s.Reaches id (.intrinsic i) ∧ s.ShownIn ref i) ∨
    ∃ c given entry, (s.entity id).child = some c ∧ childParameters s c = .ok given ∧
      entry ∈ given ∧ s.LooksUp entry.2 ref

/-- The rendering of an entity looks up a reference to the attribute that has no name. -/
def EntityLacks (s : Store) (id : Nat) (attr : String) : Prop :=
  ∃ ref, (s.Reaches id (.reference ref) ∨ Hides s id ref) ∧ (s.reference ref).name = none ∧
    (s.reference ref).attr = attr

theorem entityLacks_of_prop {id : Nat} {entry : Value × Value} {attr : String}
    (mem : entry ∈ s.props id) (h : s.Lacks entry.2 attr) : EntityLacks s id attr := by
  obtain ⟨ref, looksUp, lacks⟩ := h
  refine ⟨ref, ?_, lacks⟩
  have reaches : s.Reaches id entry.2 := .prop mem
  rcases looksUp with within | ⟨i, within, shown⟩
  · exact .inl (reaches.within within)
  · exact .inr (.inl ⟨i, reaches.within within, shown⟩)

theorem entityLacks_of_parameterForm {id : Nat} {fault : Fault} {attr : String}
    (h : parameterForm s plan id = .error fault) (unnamed : fault.Unnamed attr) :
    EntityLacks s id attr := by
  obtain ⟨ref, looksUp, lacks⟩ := lacks_of_renderTo h unnamed
  refine ⟨ref, ?_, lacks⟩
  rcases looksUp with within | ⟨i, within, shown⟩
  · exact .inl ((reaches_of_within within).resolve_left nofun)
  · exact .inr (.inl ⟨i, (reaches_of_within within).resolve_left nofun, shown⟩)

theorem entityLacks_of_stackForm {name : String} {id : Nat} {c : Child} {fault : Fault}
    {attr : String} (child : (s.entity id).child = some c)
    (h : stackForm s plan name (s.entity id) c = .error fault) (unnamed : fault.Unnamed attr) :
    EntityLacks s id attr := by
  rcases bind_eq_error_iff.mp h with failed | ⟨given, eq, later⟩
  · refine absurd unnamed (Fault.not_unnamed fun message same => ?_)
    subst same
    unfold childParameters at failed
    split at failed
    · cases failed
    · cases failed
    · split at failed <;> cases failed
    · split at failed <;> cases failed
  · rcases bind_eq_error_iff.mp later with failed | ⟨_, -, never⟩
    · obtain ⟨entry, mem, failed⟩ := exists_of_renderEntries_eq_error
        (fun k never => by cases never) failed unnamed
      obtain ⟨ref, looksUp, lacks⟩ := lacks_of_renderTo failed unnamed
      exact ⟨ref, .inr (.inr ⟨c, given, entry, child, eq, mem, looksUp⟩), lacks⟩
    · cases never

theorem entityLacks_of_resourceForm {n : Namespace} {name : String} {id : Nat} {fault : Fault}
    {attr : String} (h : resourceForm s plan n name id = .error fault)
    (unnamed : fault.Unnamed attr) : EntityLacks s id attr := by
  rcases bind_eq_error_iff.mp h with failed | ⟨_, -, never⟩
  · obtain ⟨entry, mem, failed⟩ := exists_of_renderProps_eq_error failed unnamed
    exact entityLacks_of_prop mem (lacks_of_renderTo failed unnamed)
  · cases never

theorem entityLacks_of_addEntity {n : Namespace} {draft : Draft} {name : String} {v : Value}
    {fault : Fault} {attr : String} (h : addEntity s plan n draft (name, v) = .error fault)
    (unnamed : fault.Unnamed attr) : ∃ id, v = .entity id ∧ EntityLacks s id attr := by
  unfold addEntity at h
  cases v with
  | entity id =>
    refine ⟨id, rfl, ?_⟩
    cases kind : (s.entity id).kind with
    | property =>
      simp only [kind] at h
      cases h
    | resource =>
      cases parameter : isParameter (s.entity id) with
      | true =>
        simp only [kind, parameter] at h
        rcases bind_eq_error_iff.mp h with failed | ⟨_, -, never⟩
        · exact entityLacks_of_parameterForm failed unnamed
        · cases never
      | false =>
        cases child : (s.entity id).child with
        | some c =>
          simp only [kind, parameter, child] at h
          rcases bind_eq_error_iff.mp h with failed | ⟨_, -, never⟩
          · exact entityLacks_of_stackForm child failed unnamed
          · cases never
        | none =>
          simp only [kind, parameter, child] at h
          rcases bind_eq_error_iff.mp h with failed | ⟨_, -, never⟩
          · exact entityLacks_of_resourceForm failed unnamed
          · cases never
  | _ =>
    cases h
    exact absurd unnamed (Fault.not_unnamed nofun)

/-! ## Templates -/

theorem not_unnamed_of_outputForm {v : Value} {fault : Fault} {attr : String}
    (h : outputForm s v = .error fault) : ¬ fault.Unnamed attr := by
  refine Fault.not_unnamed fun message eq => ?_
  subst eq
  cases v <;> cases h

/-- The template of a namespace is refused for want of a name only if the rendering of one of its
entities looks up a reference without one. -/
theorem entityLacks_of_serialize {n : Namespace} {outputs : List Value} {fault : Fault}
    {attr : String} (h : (serialize s plan n outputs).result = .error fault)
    (unnamed : fault.Unnamed attr) :
    ∃ name id, (name, .entity id) ∈ n ∧ EntityLacks s id attr := by
  unfold serialize at h
  split at h
  · next other drawn =>
    cases h
    obtain ⟨⟨name, v⟩, mem, draft, failed⟩ := exists_of_foldlM_eq_error drawn
    obtain ⟨id, rfl, lacks⟩ := entityLacks_of_addEntity failed unnamed
    exact ⟨name, id, mem, lacks⟩
  · next draft other _ listed =>
    cases h
    obtain ⟨v, -, failed⟩ := exists_of_mapM_eq_error listed
    exact absurd unnamed (not_unnamed_of_outputForm failed)
  · next draft listed _ _ =>
    rw [Logged.result_bind] at h
    split at h
    · next other written =>
      cases h
      exact absurd unnamed (Json.not_unnamed_of_document written)
    · cases h

/-! ## Resolution and rendering -/

/-- A resolution ends with a dangling reference where the properties of an entity lead to one. After
a resolution that succeeds, the template of entities of the namespace is refused for want of a name
only because of a reference that stands in an interpolated text or in the parameters of a child
project, and nowhere else within reach of the namespace. -/
theorem resolve_gates_serialize (s : Store) (n : Namespace) :
    let t := (s.resolve n).result.1
    let outcome := (s.resolve n).result.2
    ((∃ name id ref, (name, .entity id) ∈ n ∧ s.Reaches id (.reference ref) ∧
        ∀ other e, (other, .entity e) ∈ n → handle e ≠ (s.reference ref).parent) →
      ∃ path, outcome = .error (.failed (.dangling path none))) ∧
    ∀ arena, outcome = .ok arena →
      ∀ (plan : Plan) (part : Namespace) (outputs : List Value) (fault : Fault) (attr : String),
        (∀ entry ∈ part, entry ∈ n) → (serialize t plan part outputs).result = .error fault →
        fault.Unnamed attr →
        ∃ name id ref, (name, .entity id) ∈ part ∧ Hides t id ref ∧
          (t.reference ref).name = none ∧ (t.reference ref).attr = attr ∧
          ∀ other e, (other, .entity e) ∈ n →
            (∀ accessor, (accessor, ref) ∉ (t.entity e).accessors) ∧
              ¬ t.Reaches e (.reference ref) := by
  obtain ⟨t, r, result, same, -, resolved⟩ := resolveReferences_cases (s.assignNames n) n none
  have assigned := sameButNames_assignNames s n
  rw [show s.resolve n = (s.assignNames n).resolveReferences n none from rfl, result]
  refine ⟨?_, ?_⟩
  · rintro ⟨name, id, ref, inside, reaches, absent⟩
    cases resolved with
    | dangling first => exact ⟨_, rfl⟩
    | named known =>
      obtain ⟨found, eq, -⟩ := known ref
        (mem_referencesOf_walk.mpr ⟨name, id, inside, .inr (assigned.reaches reaches)⟩)
      have unknown : (Arena.ofNamespace n).nameOf? ((s.assignNames n).reference ref).parent =
          none := by
        rw [assigned.parent, Arena.nameOf?_eq_none_iff]
        exact fun other e mem => absent other e (Namespace.mem_entities.mp mem)
      cases unknown.symm.trans eq
  · intro arena done plan part outputs fault attr sub failed unnamed
    cases resolved with
    | dangling _ => cases done
    | named known =>
      -- A reference without a name is none of those that the resolution has met.
      have unmet : ∀ ref, (t.reference ref).name = none → ∀ other e, (other, .entity e) ∈ n →
          (∀ accessor, (accessor, ref) ∉ (t.entity e).accessors) ∧
            ¬ t.Reaches e (.reference ref) := by
        intro ref none other e inside
        have never : ¬ ((∃ accessor, (accessor, ref) ∈ ((s.assignNames n).entity e).accessors) ∨
            (s.assignNames n).Reaches e (.reference ref)) := by
          intro met
          obtain ⟨name, -, named⟩ := known ref (mem_referencesOf_walk.mpr ⟨other, e, inside, met⟩)
          cases none.symm.trans named
        refine ⟨fun accessor own => never (.inl ⟨accessor, ?_⟩),
          fun reaches => never (.inr (same.symm.reaches reaches))⟩
        rwa [same.accessors] at own
      obtain ⟨name, id, mem, ref, how, none, attr_eq⟩ := entityLacks_of_serialize failed unnamed
      have hides := how.resolve_left (unmet ref none name id (sub _ mem)).2
      exact ⟨name, id, ref, mem, hides, none, attr_eq, unmet ref none⟩

/-- A bucket, a queue with an interpolated text that shows an attribute of it, and a child project
with that attribute among its parameters. -/
def stackStore : Store :=
  let s := (initial.newEntity .resource "Bucket" "template" "Bucket" [] [("arn", "Arn")] none).2
  let s := (s.newIntrinsic (.interpolation ["arn:", ""] [.reference 0])).2
  let s := (s.newEntity .resource "Queue" "template" "Queue" [(.text "target", .intrinsic 4)] []
    none).2
  let s := (s.newMapping [(.text "source", .reference 0)]).2
  let s := (s.newMapping [(.text "parameters", .mapping 2)]).2
  (s.newEntity .resource "ChildProject" "template" "Template::Stack" [] []
    (some ⟨"network", 3, [], none⟩)).2

/-- Without the bucket the resolution of the queue and the child project succeeds. -/
theorem resolve_without_bucket :
    let n : Namespace := [("queue", .entity 1), ("network", .entity 2)]
    (stackStore.resolve n).result = (stackStore.assignNames n, .ok (Arena.ofNamespace n)) := by
  cbv

theorem serialize_network_without_bucket :
    let n : Namespace := [("queue", .entity 1), ("network", .entity 2)]
    (serialize (stackStore.assignNames n) ⟨["queue", "network"], markOutput, []⟩
        [("network", .entity 2)] []).result =
      .error (.failed (.serialization
        ("Cannot serialize attribute reference \"" ++ "Arn" ++ "\": logical name not set"))) := rfl

/-- What a child project lacks, its parameters hide. -/
theorem resolve_gates_serialize_network :
    let n : Namespace := [("queue", .entity 1), ("network", .entity 2)]
    let t := (stackStore.resolve n).result.1
    let part : Namespace := [("network", .entity 2)]
    (stackStore.resolve n).result.2 = .ok (Arena.ofNamespace n) ∧ (∀ entry ∈ part, entry ∈ n) ∧
      ∃ fault, (serialize t ⟨["queue", "network"], markOutput, []⟩ part []).result = .error fault ∧
        fault.Unnamed "Arn" ∧
        ∃ name id ref, (name, .entity id) ∈ part ∧ Hides t id ref ∧
          (t.reference ref).name = none := by
  intro n t part
  have resolved : (stackStore.resolve n).result = (stackStore.assignNames n, _) :=
    resolve_without_bucket
  have done : (stackStore.resolve n).result.2 = .ok (Arena.ofNamespace n) := by rw [resolved]
  have sub : ∀ entry ∈ part, entry ∈ n := by decide
  have failed : (serialize (stackStore.assignNames n) ⟨["queue", "network"], markOutput, []⟩ part
      []).result = _ := serialize_network_without_bucket
  rw [show stackStore.assignNames n = t from (congrArg Prod.fst resolved).symm] at failed
  obtain ⟨name, id, ref, inside, hides, none, -, -⟩ :=
    (resolve_gates_serialize stackStore n).2 _ done _ part [] _ "Arn" sub failed (.inl rfl)
  exact ⟨done, sub, _, failed, .inl rfl, name, id, ref, inside, hides, none⟩

/-- Neither the interpolated text of the queue nor the parameters of the child project lead a
resolution to the bucket that is missing: it succeeds, and then both lack a name. -/
theorem missing_bucket_not_reported :
    let n : Namespace := [("queue", .entity 1), ("network", .entity 2)]
    let t := stackStore.assignNames n
    let plan : Plan := ⟨["queue", "network"], markOutput, []⟩
    (stackStore.resolve n).result = (t, .ok (Arena.ofNamespace n)) ∧
      (∃ fault, (serialize t plan [("queue", .entity 1)] []).result = .error fault ∧
        fault.Unnamed "Arn") ∧
      ∃ fault, (serialize t plan [("network", .entity 2)] []).result = .error fault ∧
        fault.Unnamed "Arn" := by
  intro n t plan
  have queue : (serialize t plan [("queue", .entity 1)] []).result = .error (.failed (.serialization
      ("Cannot interpolate attribute reference \"" ++ "Arn" ++ "\": logical name not set"))) := rfl
  exact ⟨resolve_without_bucket, ⟨_, queue, .inr rfl⟩, _, serialize_network_without_bucket,
    .inl rfl⟩

end Template
end Infra
