import Infra.Discovery.Discover
import Infra.Proofs.Discovery.Collision
import Infra.Proofs.Discovery.Dependency
import Infra.Proofs.Discovery.Naming
import Infra.Proofs.Named

/-!
# The pass over loaded units

* `Discovery.Pass` : what collecting, resolving and graphing the exports of units come to, and the
  failure that ended them, if one did;
* `Discovery.exists_pass`, `Discovery.Pass.ofUnits` : every discovery goes through such a pass, and
  reports the units that could not be loaded before the failure that ended it;
* `Discovery.Ending` : the three states in which a discovery ends;
* `Store.discoverMemory_ending` : a discovery ends in exactly one of them, and a failure of names or
  references is its last one;
* `MemoryUnit.Units.sound`, `.broken`, `.exported` : units in memory by what they are, and what
  loading them comes to;
* `Store.discoverMemory_of_loading` : to leave out the units that raise an error leaves out their
  reports and nothing else.
-/

namespace Infra

namespace Discovery

variable {s t : Store} {units : List LoadedUnit} {n : Namespace} {g : Graph} {late : Option Failure}

/-- What the pass over loaded units leaves: a store, a namespace, a graph, and the failure that ended
the pass, if one did. -/
inductive Pass (s : Store) (units : List LoadedUnit) :
    Store → Namespace → Graph → Option Failure → Prop
  /-- Two objects claim one name. -/
  | clash {t : Store} {name unit message : String} :
    (s.collect units).result = (t, .error (.failed (.duplicate name unit (some message)))) →
      Pass s units t [] [] (some (.duplicate name unit (some message)))
  /-- A reference within reach of the namespace leads out of it. -/
  | dangling {u t : Store} {n : Namespace} {path : String} :
    (s.collect units).result = (u, .ok n) →
      (u.resolve n).result = (t, .error (.failed (.dangling path none))) →
      Pass s units t n [] (some (.dangling path none))
  | complete {u t : Store} {n : Namespace} :
    (s.collect units).result = (u, .ok n) →
      (u.resolve n).result = (t, .ok (Arena.ofNamespace n)) →
      Pass s units t n (t.dependencyGraph n (some (Arena.ofNamespace n))).result none

theorem exists_pass (s : Store) (units : List LoadedUnit) :
    ∃ t n g late, Pass s units t n g late := by
  rcases Store.collect_cases s units with ⟨n, done, -⟩ | ⟨⟨name, unit, message, failed⟩, -⟩
  · have collected : (s.collect units).result = ((s.collect units).result.1, .ok n) :=
      Prod.ext rfl done
    obtain ⟨t, r, resolved, -, -, outcome⟩ :=
      Store.resolveReferences_cases ((s.collect units).result.1.assignNames n) n none
    cases outcome with
    | named _ => exact ⟨_, _, _, _, .complete collected resolved⟩
    | dangling _ => exact ⟨_, _, _, _, .dangling collected resolved⟩
  · exact ⟨_, _, _, _, .clash (Prod.ext rfl failed)⟩

/-- A discovery reports the units that could not be loaded, and then the failure that ended the
pass over the others. -/
theorem Pass.ofUnits {attempts : List Attempt} (pass : Pass s (loaded attempts) t n g late)
    (root : String) :
    (ofUnits s root attempts).result =
      (t, .ok ⟨n, g, attempts.map (·.1), loadFailures attempts ++ late.toList⟩) := by
  unfold Discovery.ofUnits
  rw [Logged.result_bind]
  cases pass with
  | clash collected =>
    rw [collected]
    rfl
  | dangling collected resolved =>
    rw [collected]
    show (_ >>= _ : Logged _).result = _
    rw [Logged.result_bind, resolved]
    rfl
  | complete collected resolved =>
    rw [collected]
    show (_ >>= _ : Logged _).result = _
    rw [Logged.result_bind, resolved]
    simp

/-! ## Endings -/

/-- The states in which a discovery ends. -/
inductive Ending
  | complete | dangling | clash
  deriving DecidableEq, Repr

/-- None of the failures is one of names or references. -/
def LoadsOnly (failures : List Failure) : Prop := ∀ f ∈ failures, f.kind.isResolution = false

/-- What a discovery of loaded units that began in `s` and ended in `t` found in each of the states.
It has a graph of resources, or a namespace whose references dangle, or no namespace and no change
of names. -/
def EndsIn (s t : Store) (units : List LoadedUnit) (d : Discovery) : Ending → Prop
  | .complete =>
    LoadsOnly d.failures ∧ (s.collect units).result.2 = .ok d.entities ∧
      d.dependencies.nodes = d.entities.entities.map (·.1) ∧
      ∀ name targets, (name, targets) ∈ d.dependencies → ∀ target ∈ targets,
        target ∈ d.dependencies.nodes ∧
          ∃ id, (target, .entity id) ∈ d.entities ∧ (t.entity id).kind = .resource
  | .dangling =>
    ∃ loads path, d.failures = loads ++ [.dangling path none] ∧ LoadsOnly loads ∧
      (s.collect units).result.2 = .ok d.entities ∧ d.dependencies = []
  | .clash =>
    ∃ loads name unit message, d.failures = loads ++ [.duplicate name unit message] ∧
      LoadsOnly loads ∧ d.entities = [] ∧ d.dependencies = [] ∧
      (∀ id, (t.entity id).name = (s.entity id).name) ∧
      ∀ ref, (t.reference ref).name = (s.reference ref).name

/-- The state that the last failure tells. -/
def Ending.ofFailures (failures : List Failure) : Ending :=
  match failures.getLast?.map (·.kind) with
  | some (Failure.Kind.dangling _) => .dangling
  | some (Failure.Kind.duplicate ..) => .clash
  | _ => .complete

theorem EndsIn.eq_ofFailures {d : Discovery} {e : Ending} (h : EndsIn s t units d e) :
    e = .ofFailures d.failures := by
  unfold Ending.ofFailures
  cases e with
  | complete =>
    have loads := h.1
    cases last : d.failures.getLast? with
    | none => rfl
    | some f =>
      have quiet := loads f (List.mem_of_getLast? last)
      simp only [Option.map_some]
      split
      · next eq =>
        rw [Option.some.inj eq] at quiet
        cases quiet
      · next eq =>
        rw [Option.some.inj eq] at quiet
        cases quiet
      · rfl
  | dangling =>
    obtain ⟨loads, path, failures, -⟩ := h
    rw [failures, List.getLast?_concat]
    rfl
  | clash =>
    obtain ⟨loads, name, unit, message, failures, -⟩ := h
    rw [failures, List.getLast?_concat]
    rfl

/-- A pass that goes through has the graph of a namespace that repeats no entity, so its edges lead
to resources there. -/
theorem resource_of_mem_dependencyGraph (once : (n.entities.map (·.2)).Nodup) {name : String}
    {targets : List String}
    (mem : (name, targets) ∈ (t.dependencyGraph n (some (Arena.ofNamespace n))).result)
    {target : String} (inside : target ∈ targets) :
    ∃ id, (target, .entity id) ∈ n ∧ (t.entity id).kind = .resource := by
  have arena : Arena.orOfNamespace (some (Arena.ofNamespace n)) n = Arena.ofNamespace n := by
    simp only [Arena.orOfNamespace, ite_self]
  rw [Store.dependencyGraph_result, arena] at mem
  obtain ⟨⟨_, id⟩, -, eq⟩ := List.mem_map.mp mem
  obtain ⟨-, rfl⟩ := Prod.mk.inj eq
  obtain ⟨e, held, kind, -⟩ := (Store.mem_dependencies_ofNamespace once).mp inside
  exact ⟨e, held, kind⟩

/-- The pass decides the state in which a discovery ends. -/
theorem Pass.exists_ending (pass : Pass s units t n g late) {loads : List Failure}
    (quiet : LoadsOnly loads) (paths : List String) :
    ∃ e, EndsIn s t units ⟨n, g, paths, loads ++ late.toList⟩ e := by
  cases pass with
  | @clash _ name unit message collected =>
    have same : Store.SameButProps s t := by
      have all := Store.sameButProps_collect s units
      rwa [collected] at all
    refine ⟨.clash, loads, name, unit, some message, rfl, quiet, rfl, rfl, same.name, ?_⟩
    intro ref
    unfold Store.reference
    rw [same.references]
  | @dangling _ _ _ path collected resolved =>
    exact ⟨.dangling, loads, path, rfl, quiet, by rw [collected], rfl⟩
  | complete collected resolved =>
    have once := Namespace.entities_nodup (Store.collect_spec collected).2
    have nodes := Store.nodes_dependencyGraph t n (some (Arena.ofNamespace n))
    refine ⟨.complete, ?_, by rw [collected], nodes, ?_⟩
    · show LoadsOnly (loads ++ [])
      rwa [List.append_nil]
    · intro name targets mem target inside
      obtain ⟨id, held, kind⟩ := resource_of_mem_dependencyGraph once mem inside
      refine ⟨?_, id, held, kind⟩
      show target ∈ Graph.nodes _
      rw [nodes]
      exact List.mem_map.mpr ⟨(target, id), Namespace.mem_entities.mpr held, rfl⟩

theorem only_of_append_toList {loads before after : List Failure} {f : Failure}
    (quiet : LoadsOnly loads) (split : loads ++ late.toList = before ++ f :: after)
    (resolution : f.kind.isResolution = true) : after = [] ∧ LoadsOnly before := by
  have alone : f ∉ loads := by
    intro mem
    have none := quiet f mem
    rw [resolution] at none
    cases none
  cases late with
  | none =>
    have mem : f ∈ loads := by
      have whole : loads = before ++ f :: after := by simpa using split
      simp [whole]
    exact absurd mem alone
  | some last =>
    rcases List.eq_nil_or_concat after with rfl | ⟨init, final, rfl⟩
    · obtain ⟨rfl, -⟩ := List.append_inj' split rfl
      exact ⟨rfl, quiet⟩
    · have whole : loads ++ [last] = before ++ f :: init ++ [final] := by simpa using split
      obtain ⟨rfl, -⟩ := List.append_inj' whole rfl
      exact absurd (by simp) alone

end Discovery

/-! ## Units in memory -/

namespace MemoryUnit

open Discovery (loaded loadFailures)

namespace Units

variable {units : Units} {path : String} {u : MemoryUnit}

/-- The attempts to load the listed units, or else all of them in order of path. -/
def attempts (units : Units) (listed : Option (List String)) : List Discovery.Attempt :=
  (listed.getD units.find).map fun path => (path, units.load path)

theorem kind_of_load {failure : Failure} (failed : units.load path = .error failure) :
    failure.kind = .load path none := by
  unfold load at failed
  split at failed
  · cases failed
    rfl
  · cases failed
  · cases failed
    rfl

/-- The error that the unit of a path raises, if it raises one. -/
def raised? (units : Units) (path : String) : Option Raised :=
  match units.lookup path with
  | some (.raises error) => some error
  | _ => none

/-- What the unit of a path exports, if it has exports. -/
def exported? (units : Units) (path : String) : Option LoadedUnit :=
  match units.lookup path with
  | some (.exports bindings) => some ⟨path, bindings⟩
  | _ => none

/-- The units without those that raise an error. -/
def sound (units : Units) : Units := units.filter fun unit => (units.raised? unit.1).isNone

/-- The paths of the units that raise an error, sorted. -/
def broken (units : Units) : List String :=
  Text.sorted ((units.map (·.1)).filter fun path => (units.raised? path).isSome)

/-- The exports of the units that have some, in order of path. -/
def exported (units : Units) : List LoadedUnit :=
  (Text.sorted (units.map (·.1))).filterMap units.exported?

/-- The failure to load a unit for an error it raises. The error stays its cause unless it would
end the process. -/
def report (path : String) (error : Raised) : Failure :=
  .load path error.message (if error.isInterrupt then none else some error)

theorem load_of_lookup_raises {error : Raised} (found : units.lookup path = some (.raises error)) :
    units.load path = .error (report path error) := by
  unfold load
  rw [found]
  rfl

theorem load_of_lookup_exports {bindings : List (String × Value)}
    (found : units.lookup path = some (.exports bindings)) : units.load path = .ok bindings := by
  unfold load
  rw [found]

theorem loaded_attempts (units : Units) : loaded (units.attempts none) = units.exported := by
  show ((Text.sorted (units.map (·.1))).map fun path => (path, units.load path)).filterMap _ =
    (Text.sorted (units.map (·.1))).filterMap units.exported?
  rw [List.filterMap_map]
  apply List.filterMap_congr
  intro path _
  cases found : units.lookup path with
  | none => simp [exported?, load, found]
  | some unit => cases unit <;> simp [exported?, load, found]

/-- Each unit that raises an error has its report, in order of path, and there is no other one. -/
theorem loadFailures_attempts (units : Units) :
    List.Forall₂
      (fun path failure =>
        ∃ error, units.lookup path = some (.raises error) ∧ failure = report path error)
      units.broken (loadFailures (units.attempts none)) := by
  have held : ∀ path ∈ units.find, (units.lookup path).isSome := by
    intro path mem
    obtain ⟨unit, inside, rfl⟩ := List.mem_map.mp (Text.mem_sorted.mp mem)
    exact List.lookup_isSome_iff.mpr ⟨unit, inside, by simp⟩
  show List.Forall₂ _ _ (loadFailures (units.find.map fun path => (path, units.load path)))
  have paths : units.broken = units.find.filter fun path => (units.raised? path).isSome :=
    Text.sorted_filter _ _
  rw [paths]
  clear paths
  generalize units.find = paths at held
  induction paths with
  | nil => exact .nil
  | cons path rest ih =>
    have tail := ih fun other mem => held other (List.mem_cons_of_mem _ mem)
    obtain ⟨unit, found⟩ := Option.isSome_iff_exists.mp (held path List.mem_cons_self)
    cases unit with
    | exports bindings =>
      simpa [loadFailures, raised?, found, load_of_lookup_exports found] using tail
    | raises error =>
      have here := load_of_lookup_raises found
      simpa [loadFailures, raised?, found, here] using tail

/-! ### Without the units that raise an error -/

theorem lookup_sound (units : Units) (path : String) :
    units.sound.lookup path =
      if (units.raised? path).isNone then units.lookup path else none :=
  Named.lookup_filter units (fun path => (units.raised? path).isNone) path

theorem raised?_sound (units : Units) (path : String) : units.sound.raised? path = none := by
  cases quiet : units.raised? path with
  | none =>
    rw [← quiet]
    unfold raised?
    rw [lookup_sound, quiet]
    rfl
  | some error =>
    unfold raised?
    rw [lookup_sound, quiet]
    rfl

theorem broken_sound (units : Units) : units.sound.broken = [] := by
  simp [broken, raised?_sound, Text.sorted]

theorem exported_sound (units : Units) : units.sound.exported = units.exported := by
  have paths : Text.sorted (units.sound.map (·.1)) =
      (Text.sorted (units.map (·.1))).filter fun path => (units.raised? path).isNone := by
    unfold sound
    rw [← Text.sorted_filter, List.filter_map]
    rfl
  unfold exported
  rw [paths, List.filterMap_filter]
  apply List.filterMap_congr
  intro path _
  unfold exported?
  rw [lookup_sound]
  cases found : units.lookup path with
  | none => simp
  | some unit => cases unit <;> simp [raised?, found]

end Units

theorem loadsOnly_attempts (units : Units) (listed : Option (List String)) :
    Discovery.LoadsOnly (loadFailures (units.attempts listed)) := by
  intro f mem
  obtain ⟨attempt, inside, eq⟩ := List.mem_filterMap.mp mem
  obtain ⟨path, -, rfl⟩ := List.mem_map.mp inside
  cases failed : units.load path with
  | ok bindings => simp [failed] at eq
  | error failure =>
    have same : failure = f := by simpa [failed] using eq
    rw [← same, Units.kind_of_load failed]
    rfl

end MemoryUnit

namespace Store

open Discovery (loaded loadFailures Pass)
open MemoryUnit (Units)

variable {s t : Store} {n : Namespace} {g : Graph} {late : Option Failure}

theorem result_discoverMemory (s : Store) (units : Units) (listed : Option (List String))
    (root : String) :
    (s.discoverMemory units listed root).result =
      (Discovery.ofUnits s root (units.attempts listed)).result := rfl

/-- A discovery of units in memory gives a result, which is in exactly one of three states: a
namespace with its graph and no failure but of units; a namespace without a graph, whose last
failure is a dangling reference; or nothing at all, with a name claimed twice as the last failure
and all names as before. A failure of names or references is the only one of its kind and comes
last. -/
theorem discoverMemory_ending (s : Store) (units : Units) (listed : Option (List String))
    (root : String) :
    let t := (s.discoverMemory units listed root).result.1
    ∃ d, (s.discoverMemory units listed root).result.2 = .ok d ∧
      (∃! e, Discovery.EndsIn s t (loaded (units.attempts listed)) d e) ∧
      ∀ before f after, d.failures = before ++ f :: after → f.kind.isResolution = true →
        after = [] ∧ Discovery.LoadsOnly before := by
  intro t
  obtain ⟨u, n, g, late, pass⟩ := Discovery.exists_pass s (loaded (units.attempts listed))
  have result := pass.ofUnits root
  have quiet := MemoryUnit.loadsOnly_attempts units listed
  obtain ⟨e, ends⟩ := pass.exists_ending quiet ((units.attempts listed).map (·.1))
  have final : t = u := by
    show (s.discoverMemory units listed root).result.1 = u
    rw [result_discoverMemory, result]
  refine ⟨_, by rw [result_discoverMemory, result], ⟨e, ?_, ?_⟩, ?_⟩
  · rw [final]
    exact ends
  · intro other there
    exact there.eq_ofFailures.trans ends.eq_ofFailures.symm
  · intro before f after split
    exact Discovery.only_of_append_toList quiet split

/-- Units that raise an error take nothing from the others: without them a discovery leaves the
same store and finds the same entities and dependencies, by a pass over what the others export. Its
failures are then the later ones, after one report for each unit that raises an error, which names
that unit and tells the error, in order of path. -/
theorem discoverMemory_of_loading (s : Store) (units : Units) (root : String) :
    ∃ t d e reports late,
      (s.discoverMemory units none root).result = (t, .ok d) ∧
      (s.discoverMemory units.sound none root).result = (t, .ok e) ∧
      Pass s units.exported t e.entities e.dependencies late ∧ e.failures = late.toList ∧
      d.entities = e.entities ∧ d.dependencies = e.dependencies ∧
      d.failures = reports ++ e.failures ∧
      List.Forall₂
        (fun path failure =>
          ∃ error, units.lookup path = some (.raises error) ∧
            failure = .load path error.message (if error.isInterrupt then none else some error))
        units.broken reports := by
  obtain ⟨t, n, g, late, pass⟩ := Discovery.exists_pass s units.exported
  have whole : Pass s (loaded (units.attempts none)) t n g late := by
    rw [Units.loaded_attempts]
    exact pass
  -- The units that are loaded are the same, so one pass is that of both discoveries.
  have less : Pass s (loaded (units.sound.attempts none)) t n g late := by
    rw [Units.loaded_attempts, Units.exported_sound]
    exact pass
  have none_failed : loadFailures (units.sound.attempts none) = [] := by
    have reports := Units.loadFailures_attempts units.sound
    rw [Units.broken_sound] at reports
    exact List.forall₂_nil_left_iff.mp reports
  refine ⟨t, _, _, loadFailures (units.attempts none), late, whole.ofUnits root, less.ofUnits root,
    pass, ?_, rfl, rfl, ?_, Units.loadFailures_attempts units⟩
  · show loadFailures (units.sound.attempts none) ++ late.toList = late.toList
    rw [none_failed, List.nil_append]
  · show _ = _ ++ (loadFailures (units.sound.attempts none) ++ late.toList)
    rw [none_failed, List.nil_append]

end Store
end Infra
