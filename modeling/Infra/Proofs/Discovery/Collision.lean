import Infra.Proofs.Discovery.Claims
import Infra.Proofs.Discovery.Expansion

/-!
# Names that are claimed twice

* `claimsOf`, `claimsFrom` : the names that exports claim and the objects that claim them;
* `Store.claims` : the claims of units, one for each leaf of a composite; `Store.offers` : those that
  an expansion makes of them, one for each full name;
* `Collection.settles_addUnits` : collecting is claiming what is offered, one after the other;
* `Store.refuses_iff`, `Store.eq_firsts_of_collect` : so it refuses offers that clash, and leaves the
  first ones otherwise;
* `Store.refuses_spec` : so it refuses units whose claims clash, and no units but those where two
  objects claim one name.
-/

namespace Infra

open Namespace (claim claimAll)
open Store (SameButProps)

/-! ## Claims of exports -/

/-- The claims of an export. A composite claims names for the entities that it spreads to. -/
def claimsOf (spread : String → Nat → List (String × Nat)) (entry : String × Value) : List Claim :=
  match entry.2 with
  | .composite id => (spread entry.1 id).map fun leaf => (leaf.1, .entity leaf.2)
  | v => if Collection.isClaim v then [(entry.1, v)] else []

/-- Whether an export is the composite that was the last one to be exported under its name. -/
def isAgain (expanded : List (String × Nat)) (entry : String × Value) : Bool :=
  match entry.2 with
  | .composite id => expanded.lookup entry.1 == some id
  | _ => false

/-- The composites that were exported under each name, the last one first. -/
def remember (expanded : List (String × Nat)) (entry : String × Value) : List (String × Nat) :=
  match entry.2 with
  | .composite id => if expanded.lookup entry.1 = some id then expanded else (entry.1, id) :: expanded
  | _ => expanded

/-- The claims of exports in order. A composite that is exported again under its name is passed
over. -/
def claimsFrom (spread : String → Nat → List (String × Nat)) :
    List (String × Nat) → List (String × Value) → List Claim
  | _, [] => []
  | expanded, entry :: rest =>
    (if isAgain expanded entry then [] else claimsOf spread entry) ++
      claimsFrom spread (remember expanded entry) rest

theorem claimsFrom_append (spread : String → Nat → List (String × Nat))
    (expanded : List (String × Nat)) (exports more : List (String × Value)) :
    claimsFrom spread expanded (exports ++ more) =
      claimsFrom spread expanded exports ++
        claimsFrom spread (exports.foldl remember expanded) more := by
  induction exports generalizing expanded with
  | nil => rfl
  | cons entry rest ih =>
    rw [List.cons_append, claimsFrom, claimsFrom, ih, List.append_assoc, List.foldl_cons]

theorem claimsFrom_subset {spread other : String → Nat → List (String × Nat)}
    (sub : ∀ label id, spread label id ⊆ other label id) (expanded : List (String × Nat))
    (exports : List (String × Value)) :
    claimsFrom spread expanded exports ⊆ claimsFrom other expanded exports := by
  induction exports generalizing expanded with
  | nil => exact List.Subset.refl _
  | cons entry rest ih =>
    obtain ⟨name, v⟩ := entry
    have here : claimsOf spread (name, v) ⊆ claimsOf other (name, v) := by
      cases v with
      | composite id => exact List.map_subset _ (sub name id)
      | _ => exact List.Subset.refl _
    have offered : (if isAgain expanded (name, v) then [] else claimsOf spread (name, v)) ⊆
        if isAgain expanded (name, v) then [] else claimsOf other (name, v) := by
      split
      · exact List.Subset.refl _
      · exact here
    rw [claimsFrom, claimsFrom]
    exact List.append_subset.mpr ⟨List.subset_append_of_subset_left _ offered,
      List.subset_append_of_subset_right _ (ih _)⟩

theorem claimAll_claimsFrom {spread other : String → Nat → List (String × Nat)}
    {exports : List (String × Value)}
    (each : ∀ entry ∈ exports, ∀ n, claimAll n (claimsOf spread entry) =
      claimAll n (claimsOf other entry)) (expanded : List (String × Nat)) (n : Namespace) :
    claimAll n (claimsFrom spread expanded exports) =
      claimAll n (claimsFrom other expanded exports) := by
  induction exports generalizing expanded n with
  | nil => rfl
  | cons entry rest ih =>
    obtain ⟨here, later⟩ := List.forall_mem_cons.mp each
    rw [claimsFrom, claimsFrom, claimAll_append, claimAll_append, funext (ih later _)]
    split
    · rfl
    · rw [here]

namespace Store

/-- The entities of an expansion, by full name. -/
def spread (s : Store) (label : String) (id : Nat) : List (String × Nat) := (s.expand label id).1

/-- The claims of units, where a composite claims a name for each of its leaves. -/
def claims (s : Store) (units : List LoadedUnit) : List Claim :=
  claimsFrom s.leaves [] (units.flatMap (·.exports))

/-- The claims that are left of them when each composite is expanded. -/
def offers (s : Store) (units : List LoadedUnit) : List Claim :=
  claimsFrom s.spread [] (units.flatMap (·.exports))

variable {s t : Store}

theorem spread_eq (s : Store) (label : String) (id : Nat) :
    s.spread label id = Named.ofList (s.leaves label id) := s.expand_eq label id

theorem SameButProps.spread (same : SameButProps s t) (label : String) (id : Nat) :
    t.spread label id = s.spread label id := by
  rw [spread_eq, spread_eq, same.leaves]

theorem offers_subset_claims (s : Store) (units : List LoadedUnit) :
    s.offers units ⊆ s.claims units := by
  refine claimsFrom_subset (fun label id leaf mem => ?_) [] _
  rw [spread_eq] at mem
  exact Named.mem_of_mem_ofList mem

end Store

/-! ## Collecting is claiming -/

/-- A step of collecting comes to the namespace that its claims leave, or refuses one of them. -/
def Settles (left : Option Namespace) (expanded : List (String × Nat)) :
    Except Fault Collection → Prop
  | .ok c => left = some c.entries ∧ c.expanded = expanded
  | .error fault =>
    left = none ∧ ∃ name unit origin, fault = .failed (Collection.refusal name unit origin)

namespace Collection

theorem settles_insert (c : Collection) (name : String) (v : Value) (unit : String)
    (origin : Option String) :
    Settles (claim c.entries (name, v)) c.expanded (c.insert name v unit origin).result := by
  unfold Collection.insert claim
  cases c.entries.lookup name with
  | some held =>
    by_cases eq : held = v
    · simp only [beq_iff_eq.mpr eq, if_true, if_pos eq]
      exact ⟨rfl, rfl⟩
    · simp only [beq_eq_false_iff_ne.mpr eq, if_neg eq]
      exact ⟨rfl, name, unit, origin, rfl⟩
  | none =>
    have named : c.nameOf? v = firstName? c.entries v := rfl
    dsimp only
    rw [named]
    cases first : firstName? c.entries v with
    | some other =>
      have known : v ∈ c.entries.map (·.2) :=
        List.mem_map_of_mem (f := (·.2)) (mem_of_firstName? first)
      exact ⟨by rw [addFirst_of_mem known], rfl⟩
    | none =>
      have new := firstName?_eq_none_iff.mp first
      exact ⟨by rw [addFirst_of_not_mem new], rfl⟩

theorem settles_insertAll (unit : String) (origin : Option String) (c : Collection)
    (claims : List Claim) :
    Settles (claimAll c.entries claims) c.expanded (insertAll unit origin c claims).result := by
  induction claims generalizing c with
  | nil => exact ⟨rfl, rfl⟩
  | cons head rest ih =>
    have first := settles_insert c head.1 head.2 unit origin
    rw [insertAll, Logged.result_bind, claimAll_cons]
    cases done : (c.insert head.1 head.2 unit origin).result with
    | ok d =>
      rw [done] at first
      rw [first.1, Option.bind_some, ← first.2]
      exact ih d
    | error fault =>
      rw [done] at first
      rw [first.1, Option.bind_none]
      exact ⟨rfl, first.2⟩

variable {s t : Store}

theorem settles_addExport (same : SameButProps s t) (c : Collection) (unit : String)
    (entry : String × Value) :
    Settles (claimAll c.entries (if isAgain c.expanded entry then [] else claimsOf s.spread entry))
      (remember c.expanded entry) (c.addExport t unit entry.1 entry.2).result.2 := by
  obtain ⟨name, v⟩ := entry
  cases v with
  | composite id =>
    unfold addExport isAgain remember
    dsimp only
    by_cases again : c.expanded.lookup name = some id
    · simp only [if_pos again, beq_iff_eq.mpr again, if_true]
      exact ⟨rfl, rfl⟩
    · simp only [if_neg again, beq_eq_false_iff_ne.mpr again, Bool.false_eq_true, if_false]
      show Settles (claimAll c.entries
          ((s.spread name id).map fun leaf => (leaf.1, Value.entity leaf.2))) _
        (insertAll unit (some name) ⟨c.entries, (name, id) :: c.expanded⟩
          ((t.spread name id).map fun leaf => (leaf.1, Value.entity leaf.2))).result
      rw [same.spread]
      exact settles_insertAll _ _ _ _
  | entity id =>
    have single := settles_insert c name (.entity id) unit none
    rwa [← claimAll_singleton] at single
  | output id =>
    have single := settles_insert c name (.output id) unit none
    rwa [← claimAll_singleton] at single
  | _ => exact ⟨rfl, rfl⟩

theorem settles_bind {n : Namespace} {claims more : List Claim} {earlier later : List (String × Nat)}
    {first : Logged (Store × Except Fault Collection)}
    {next : Collection → Store → Logged (Store × Except Fault Collection)}
    (here : Settles (claimAll n claims) earlier first.result.2)
    (rest : ∀ d, d.expanded = earlier →
      Settles (claimAll d.entries more) later (next d first.result.1).result.2) :
    Settles (claimAll n (claims ++ more)) later
      (first >>= fun
        | (u, .ok d) => next d u
        | refused => pure refused).result.2 := by
  rw [Logged.result_bind, claimAll_append]
  cases done : first.result with
  | mk u r =>
    rw [done] at here rest
    cases r with
    | ok d =>
      obtain ⟨left, expanded⟩ := here
      rw [left, Option.bind_some]
      exact rest d expanded
    | error fault =>
      rw [here.1, Option.bind_none]
      exact ⟨rfl, here.2⟩

theorem settles_addExports (unit : String) (same : SameButProps s t) (c : Collection)
    (exports : List (String × Value)) :
    Settles (claimAll c.entries (claimsFrom s.spread c.expanded exports))
      (exports.foldl remember c.expanded) (addExports unit c t exports).result.2 := by
  induction exports generalizing c t with
  | nil => exact ⟨rfl, rfl⟩
  | cons entry rest ih =>
    have props := (kept_addExport c t unit entry.1 entry.2).1
    rw [claimsFrom, List.foldl_cons]
    refine settles_bind (settles_addExport same c unit entry) fun d expanded => ?_
    rw [← expanded]
    exact ih (same.trans props) d

/-- Collecting units is claiming the names that their exports claim. -/
theorem settles_addUnits (same : SameButProps s t) (c : Collection) (units : List LoadedUnit) :
    Settles (claimAll c.entries (claimsFrom s.spread c.expanded (units.flatMap (·.exports))))
      ((units.flatMap (·.exports)).foldl remember c.expanded) (addUnits c t units).result.2 := by
  induction units generalizing c t with
  | nil => exact ⟨rfl, rfl⟩
  | cons unit rest ih =>
    have props := (kept_addExports unit.path c t unit.exports).1
    rw [List.flatMap_cons, claimsFrom_append, List.foldl_append]
    refine settles_bind (settles_addExports unit.path same c unit.exports) fun d expanded => ?_
    rw [← expanded]
    exact ih (same.trans props) d

end Collection

/-! ## What is refused -/

namespace Store

variable {s t : Store} {units : List LoadedUnit} {n : Namespace}

/-- The units are refused, because of a name that is taken. -/
def Refuses (s : Store) (units : List LoadedUnit) : Prop :=
  ∃ name unit message,
    (s.collect units).result.2 = .error (.failed (.duplicate name unit (some message)))

/-- Different leaves of an exported composite have different full names. -/
def LeavesApart (s : Store) (units : List LoadedUnit) : Prop :=
  ∀ unit ∈ units, ∀ name id, (name, .composite id) ∈ unit.exports →
    ∀ full a b, (full, a) ∈ s.leaves name id → (full, b) ∈ s.leaves name id → a = b

theorem collect_cases (s : Store) (units : List LoadedUnit) :
    (∃ n, (s.collect units).result.2 = .ok n ∧ claimAll [] (s.offers units) = some n) ∨
      s.Refuses units ∧ claimAll [] (s.offers units) = none := by
  have settled := Collection.settles_addUnits (.refl s) .empty units
  unfold Refuses
  rw [result_collect]
  cases last : (Collection.addUnits .empty s units).result.2 with
  | ok c =>
    rw [last] at settled
    exact .inl ⟨c.entries, rfl, settled.1⟩
  | error fault =>
    rw [last] at settled
    obtain ⟨refused, name, unit, origin, rfl⟩ := settled
    exact .inr ⟨⟨name, unit, _, rfl⟩, refused⟩

/-- Units are refused exactly when what they offer clashes. -/
theorem refuses_iff : s.Refuses units ↔ Clash (s.offers units) := by
  rw [← claimAll_eq_none_iff]
  rcases collect_cases s units with ⟨n, done, left⟩ | ⟨refused, left⟩
  · rw [left]
    refine ⟨?_, fun never => by cases never⟩
    rintro ⟨name, unit, message, failed⟩
    cases done.symm.trans failed
  · exact ⟨fun _ => left, fun _ => refused⟩

/-- A collected namespace holds the first offer of each object. -/
theorem eq_firsts_of_collect (done : (s.collect units).result.2 = .ok n) :
    n = firsts (s.offers units) := by
  rcases collect_cases s units with ⟨m, other, left⟩ | ⟨⟨_, _, _, failed⟩, -⟩
  · cases done.symm.trans other
    exact eq_firsts_of_claimAll left
  · cases done.symm.trans failed

/-- A composite whose leaves are apart claims the same names with an expansion as without. -/
theorem claimAll_claimsOf {entry : String × Value}
    (apart : ∀ id, entry.2 = .composite id → ∀ full a b,
      (full, a) ∈ s.leaves entry.1 id → (full, b) ∈ s.leaves entry.1 id → a = b) (n : Namespace) :
    claimAll n (claimsOf s.spread entry) = claimAll n (claimsOf s.leaves entry) := by
  obtain ⟨name, v⟩ := entry
  cases v with
  | composite id =>
    show claimAll n ((s.spread name id).map _) = claimAll n ((s.leaves name id).map _)
    rw [spread_eq]
    exact claimAll_ofList .entity (apart id rfl) n
  | _ => rfl

theorem claimAll_offers (apart : s.LeavesApart units) (n : Namespace) :
    claimAll n (s.offers units) = claimAll n (s.claims units) := by
  refine claimAll_claimsFrom (fun entry mem => ?_) [] n
  obtain ⟨unit, inside, exported⟩ := List.mem_flatMap.mp mem
  obtain ⟨name, v⟩ := entry
  refine claimAll_claimsOf fun id eq => ?_
  obtain rfl : v = .composite id := eq
  exact apart unit inside name id exported

/-- Units are refused only where two different objects claim one name. Where no exported composite
has different leaves with one full name, they are refused exactly when an object claims a name that
is the first one of another object. An object may claim a second name, and leaves it free for
others. -/
theorem refuses_spec (s : Store) (units : List LoadedUnit) :
    (s.Refuses units → ∃ name v w, v ≠ w ∧
      (name, v) ∈ s.claims units ∧ (name, w) ∈ s.claims units) ∧
    (s.LeavesApart units → (s.Refuses units ↔ Clash (s.claims units))) := by
  rw [refuses_iff]
  constructor
  · rintro ⟨before, name, v, after, w, split, first, ne⟩
    have sub := offers_subset_claims s units
    rw [split] at sub
    exact ⟨name, w, v, ne, sub (by simp [mem_of_firstName? first]), sub (by simp)⟩
  · intro apart
    rw [← claimAll_eq_none_iff, ← claimAll_eq_none_iff, claimAll_offers apart]

/-- A bucket and a queue in composites, one within the other. Two paths of member names from the
outer one are one full name. -/
def nestedStore : Store :=
  let s := (queueStore.newComposite ⟨0, [("b", .entity 0)], none, false⟩).2
  (s.newComposite ⟨1, [("a", .composite 0), ("a_b", .entity 1)], none, false⟩).2

/-- A leaf of a composite and an export cannot be two entities of one name. -/
theorem refuses_nested :
    let units : List LoadedUnit := [⟨"unit", [("api", .composite 0), ("api_b", .entity 1)]⟩]
    nestedStore.LeavesApart units ∧ nestedStore.Refuses units := by
  intro units
  have leaves : nestedStore.leaves "api" 0 = [("api_b", 0)] := by decide +kernel
  have apart : nestedStore.LeavesApart units := by
    intro unit loaded name id exported full a b first second
    obtain rfl := List.mem_singleton.mp loaded
    obtain ⟨rfl, rfl⟩ : name = "api" ∧ id = 0 := by simpa using exported
    rw [leaves, List.mem_singleton] at first second
    exact (Prod.mk.inj first).2.trans (Prod.mk.inj second).2.symm
  have claims : nestedStore.claims units = [("api_b", .entity 0), ("api_b", .entity 1)] := by
    decide +kernel
  refine ⟨apart, ((refuses_spec nestedStore units).2 apart).mpr ?_⟩
  rw [claims]
  exact ⟨[("api_b", .entity 0)], "api_b", .entity 1, [], .entity 0, rfl, by decide, by decide⟩

/-- A second name of an object is free for another object, though both claim it. In the other order
of the units the same claims are refused. -/
theorem alias_not_refused :
    let units : List LoadedUnit := [⟨"first", [("bucket", .entity 0), ("alias", .entity 0)]⟩,
      ⟨"second", [("alias", .entity 1)]⟩]
    ¬ (queueStore.Refuses units ↔ ∃ name v w, v ≠ w ∧
      (name, v) ∈ queueStore.claims units ∧ (name, w) ∈ queueStore.claims units) ∧
    queueStore.Refuses units.reverse := by
  intro units
  have both : ("alias", .entity 0) ∈ queueStore.claims units ∧
      ("alias", .entity 1) ∈ queueStore.claims units := by decide
  constructor
  · intro same
    have collected : (queueStore.collect units).result.2 =
        .ok [("bucket", .entity 0), ("alias", .entity 1)] := rfl
    obtain ⟨name, unit, message, failed⟩ := same.mpr ⟨"alias", _, _, by decide, both⟩
    cases collected.symm.trans failed
  · refine refuses_iff.mpr ?_
    have offers : queueStore.offers units.reverse =
        [("alias", .entity 1), ("bucket", .entity 0), ("alias", .entity 0)] := rfl
    rw [offers]
    exact ⟨[("alias", .entity 1), ("bucket", .entity 0)], "alias", .entity 0, [], .entity 1, rfl,
      by decide, by decide⟩

end Store

end Infra
