import Infra.Check.Runner
import Infra.Proofs.Except
import Infra.Template.Check
import Mathlib.Data.List.Permutation

/-!
# Isolation of checks

* `Check.Caught built c` : the check returns, or crashes with an error that does not end the
  process; `Template.caught_checks` : so do the checks of the template backend on all documents;
* `Check.Adds disabled built c part` : what a check adds to a report;
* `result_inspect` : the report of caught checks is what they add, in their order;
* `inspect_isolated` : so one check decides its own part of the report and no other, and a runner
  reports its last run alone.
-/

namespace Infra

/-! ## One check -/

namespace Check

variable {disabled : List String} {built : Build} {c : Check}

/-- The check returns its findings, or crashes with an error that does not end the process. -/
def Caught (built : Build) (c : Check) : Prop :=
  ∀ r, c.find built = .error r → r.isInterrupt = false

/-- What a check adds to a report: all its findings in their order, or one error under its id where
it crashes; nothing where its id is disabled. -/
inductive Adds (disabled : List String) (built : Build) (c : Check) : List Diagnostic → Prop
  | nothing : c.id ∈ disabled → Adds disabled built c []
  | findings {found : List Diagnostic} : c.id ∉ disabled → c.find built = .ok found →
      Adds disabled built c found
  | crash {r : Raised} {d : Diagnostic} : c.id ∉ disabled → c.find built = .error r →
      d.check = c.id → d.severity = .error → Adds disabled built c [d]

theorem run_of_mem (off : c.id ∈ disabled) : (c.run disabled built).result = [] := by
  unfold run
  rw [if_pos (List.contains_iff_mem.mpr off)]
  rfl

theorem run_of_not_mem (on : c.id ∉ disabled) : c.run disabled built = c.findings built := by
  unfold run
  rw [if_neg fun off => on (List.contains_iff_mem.mp off)]

theorem adds_run (disabled : List String) (built : Build) (c : Check) :
    c.Adds disabled built (c.run disabled built).result := by
  by_cases off : c.id ∈ disabled
  · rw [run_of_mem off]
    exact .nothing off
  · rw [run_of_not_mem off, findings]
    cases find : c.find built with
    | ok found => exact .findings off find
    | error r => exact .crash off find rfl rfl

theorem run_cons_of_ne {id : String} (ne : c.id ≠ id) :
    c.run (id :: disabled) built = c.run disabled built := by
  by_cases off : c.id ∈ disabled
  · unfold run
    rw [if_pos (List.contains_iff_mem.mpr (List.mem_cons_of_mem id off)),
      if_pos (List.contains_iff_mem.mpr off)]
  · have on : c.id ∉ id :: disabled := List.not_mem_cons_of_ne_of_not_mem ne off
    rw [run_of_not_mem on, run_of_not_mem off]

theorem Caught.interrupt? (caught : c.Caught built) (disabled : List String) :
    c.interrupt? disabled built = none := by
  unfold Check.interrupt?
  split
  · rfl
  · split
    · next r crashed => rw [if_neg (by simp [caught r crashed])]
    · rfl

end Check

/-! ## All checks -/

section Report

variable {built : Build} {checks before after : List Check}

/-- The report of caught checks is what they add, in their order. -/
theorem result_inspect (disabled : List String) (caught : ∀ c ∈ checks, c.Caught built) :
    (inspect disabled built checks).result =
      .ok (checks.flatMap fun c => (c.run disabled built).result) := by
  induction checks with
  | nil => rfl
  | cons c rest ih =>
    obtain ⟨here, later⟩ := List.forall_mem_cons.mp caught
    rw [inspect, here.interrupt? disabled]
    simp only [Logged.result_bind, Logged.result_pure]
    rw [ih later, List.flatMap_cons]
    rfl

/-- What the checks before and after a place report, they report whatever stands there. -/
theorem result_inspect_append (disabled : List String)
    (caught : ∀ c ∈ before ++ after, c.Caught built)
    (between : List Check) (more : ∀ c ∈ between, c.Caught built) :
    (inspect disabled built (before ++ between ++ after)).result =
      .ok ((before.flatMap fun c => (c.run disabled built).result) ++
        (between.flatMap fun c => (c.run disabled built).result) ++
        after.flatMap fun c => (c.run disabled built).result) := by
  have all : ∀ c ∈ before ++ between ++ after, c.Caught built := by
    intro c mem
    simp only [List.mem_append] at mem caught
    rcases mem with (inside | here) | inside
    · exact caught c (.inl inside)
    · exact more c here
    · exact caught c (.inr inside)
  rw [result_inspect disabled all, List.flatMap_append, List.flatMap_append]

/-- To disable an id is to leave out the checks that have it. -/
theorem result_inspect_cons (id : String) (disabled : List String)
    (caught : ∀ c ∈ checks, c.Caught built) :
    (inspect (id :: disabled) built checks).result =
      (inspect disabled built (checks.filter fun c => c.id != id)).result := by
  rw [result_inspect _ caught, result_inspect _ fun c mem => caught c (List.mem_of_mem_filter mem)]
  congr 1
  clear caught
  induction checks with
  | nil => rfl
  | cons c rest ih =>
    rw [List.flatMap_cons, ih, List.filter_cons]
    by_cases same : c.id = id
    · rw [Check.run_of_mem (same ▸ List.mem_cons_self), if_neg (by simpa using same),
        List.nil_append]
    · rw [Check.run_cons_of_ne same, if_pos (by simpa using same), List.flatMap_cons]

theorem Runner.result_runAll {r : Runner} {disabled : List String} {found : List Diagnostic}
    (done : (inspect disabled built r.checks).result = .ok found) :
    (r.runAll disabled built).result = (⟨r.checks, found⟩, .ok found) := by
  rw [runAll, Logged.result_bind, done]
  rfl

theorem Runner.checks_runAll (r : Runner) (disabled : List String) (built : Build) :
    (r.runAll disabled built).result.1.checks = r.checks := by
  rw [runAll, Logged.result_bind]
  split <;> rfl

end Report

/-! ## The checks of the template backend -/

namespace Template

/-- The fault does not end the process. -/
def Ordinary (fault : Fault) : Prop := fault.toRaised.isInterrupt = false

theorem ordinary_entriesOf (d : Datum) (field : String) :
    FailsWith Ordinary (entriesOf d field) := by
  cases d with
  | table entries => exact .ok entries
  | leaf | list => exact .error rfl

theorem ordinary_elementsOf (d : Datum) : FailsWith Ordinary (elementsOf d) := by
  have items : FailsWith Ordinary (itemsOf d) := by
    unfold itemsOf
    split
    · exact .ok _
    · exact .ok _
    · exact .ok _
    · exact .error rfl
  refine .bind items fun listed => .mapM fun item _ => ?_
  cases item with
  | leaf v => exact .ok v
  | list | table => exact .error rfl

theorem ordinary_entry (resource : Datum) (name : String) :
    FailsWith Ordinary (entry resource name) :=
  .bind (ordinary_entriesOf resource "get") fun _ => .ok _

theorem ordinary_dependsOn (resource : Datum) : FailsWith Ordinary (dependsOn resource) := by
  refine .bind (ordinary_entry resource "DependsOn") fun listed => ?_
  split
  · exact .ok _
  · split
    · exact .ok _
    · exact ordinary_elementsOf listed

theorem ordinary_referenceGraph (template : List (Value × Datum)) :
    FailsWith Ordinary (referenceGraph template) :=
  .bind (ordinary_entriesOf _ "items") fun _ => .mapM fun resource _ =>
    .bind (ordinary_entry resource.2 "Properties") fun _ =>
      .bind (ordinary_dependsOn resource.2) fun _ => .ok _

theorem ordinary_findUnknown (template : List (Value × Datum)) :
    FailsWith Ordinary (findUnknown template) :=
  .bind (ordinary_elementsOf _) fun _ => .bind (ordinary_elementsOf _) fun _ =>
    .bind (ordinary_entriesOf _ "items") fun _ =>
      .bind (.mapM fun resource _ => .bind (ordinary_entry resource.2 "Properties") fun _ => .ok _)
        fun _ => .ok _

theorem ordinary_templates (outputs : Outputs) : FailsWith Ordinary (templates outputs) := by
  unfold templates
  split
  · exact .ok _
  · refine .bind (.mapM fun document _ => ?_) fun _ => .ok _
    unfold parse?
    split
    · exact .ok _
    · exact .ok _
    · exact .ok _
    · exact .error rfl
    · exact .error rfl

theorem caught_onTemplates {find : List (Value × Datum) → Except Fault (List Diagnostic)}
    (each : ∀ template, FailsWith Ordinary (find template)) (id : String) (built : Build) :
    Check.Caught built ⟨id, onTemplates find⟩ := by
  intro r crashed
  have all : FailsWith Ordinary (do (← templates built.outputs).mapM find) :=
    .bind (ordinary_templates built.outputs) fun _ => .mapM fun template _ => each template
  replace crashed : onTemplates find built = .error r := crashed
  unfold onTemplates at crashed
  split at crashed
  · cases crashed
  · next fault failed =>
    cases crashed
    exact all fault failed

/-- Whatever the documents are, no check of the backend ends the process. -/
theorem caught_checks (built : Build) : ∀ c ∈ checks, c.Caught built :=
  List.forall_mem_cons.mpr
    ⟨caught_onTemplates
        (fun template => .bind (ordinary_referenceGraph template) fun _ => .ok _) _ _,
      List.forall_mem_singleton.mpr (caught_onTemplates ordinary_findUnknown _ _)⟩

end Template

/-! ## Isolation -/

/-- Caught checks are reported, each by what it adds, in their order. So a check decides its own
part of the report: to insert, remove, replace or disable it changes no other part. A runner reports
its last run, whatever it was run on before. The checks of the template backend are caught, whatever
the documents are. -/
theorem inspect_isolated (disabled : List String) (built : Build) (checks : List Check)
    (caught : ∀ c ∈ checks, c.Caught built) :
    (∃ parts, List.Forall₂ (Check.Adds disabled built) checks parts ∧
      (inspect disabled built checks).result = .ok parts.flatten) ∧
    (∀ before c after, checks = before ++ c :: after → ∃ first part last,
      c.Adds disabled built part ∧
      (inspect disabled built checks).result = .ok (first ++ part ++ last) ∧
      (inspect disabled built (before ++ after)).result = .ok (first ++ last) ∧
      (∀ other : Check, other.Caught built → ∃ part', other.Adds disabled built part' ∧
        (inspect disabled built (before ++ other :: after)).result =
          .ok (first ++ part' ++ last)) ∧
      ((∀ d ∈ before ++ after, d.id ≠ c.id) →
        (inspect (c.id :: disabled) built checks).result = .ok (first ++ last))) ∧
    (∀ id, (inspect (id :: disabled) built checks).result =
      (inspect disabled built (checks.filter fun c => c.id != id)).result) ∧
    (∀ (r : Runner) (disabled' : List String) (built' : Build), r.checks = checks →
      ∃ found, (inspect disabled built checks).result = .ok found ∧
        ((r.runAll disabled' built').result.1.runAll disabled built).result =
          (⟨checks, found⟩, .ok found)) ∧
    ∀ other, ∀ c ∈ Template.checks, c.Caught other := by
  have report := result_inspect disabled caught
  refine ⟨⟨checks.map fun c => (c.run disabled built).result, ?_,
    report.trans (congrArg _ List.flatMap_def)⟩, ?_,
    fun id => result_inspect_cons id disabled caught, ?_, Template.caught_checks⟩
  · rw [List.forall₂_map_right_iff, List.forall₂_same]
    exact fun c _ => c.adds_run disabled built
  · rintro before c after rfl
    have own : c.Caught built := caught c (by simp)
    have others : ∀ d ∈ before ++ after, d.Caught built := by
      intro d mem
      apply caught d
      simp only [List.mem_append, List.mem_cons] at mem ⊢
      tauto
    have at_place : ∀ (off : List String) (d : Check), d.Caught built →
        (inspect off built (before ++ d :: after)).result =
          .ok ((before.flatMap fun c => (c.run off built).result) ++
            (d.run off built).result ++ after.flatMap fun c => (c.run off built).result) := by
      intro off d here
      have placed := result_inspect_append off others [d] (List.forall_mem_singleton.mpr here)
      simpa using placed
    have without : (inspect disabled built (before ++ after)).result =
        .ok ((before.flatMap fun c => (c.run disabled built).result) ++
          after.flatMap fun c => (c.run disabled built).result) := by
      rw [result_inspect disabled others, List.flatMap_append]
    refine ⟨_, _, _, c.adds_run disabled built, at_place disabled c own, without, ?_, ?_⟩
    · exact fun other here => ⟨_, other.adds_run disabled built, at_place disabled other here⟩
    · intro alone
      have left : (before ++ c :: after).filter (fun d => d.id != c.id) = before ++ after := by
        rw [List.filter_append, List.filter_cons, if_neg (by simp), ← List.filter_append,
          List.filter_eq_self]
        simpa using alone
      rw [result_inspect_cons c.id disabled caught, left, without]
  · rintro r disabled' built' rfl
    refine ⟨_, report, ?_⟩
    have same := r.checks_runAll disabled' built'
    rw [Runner.result_runAll (by rw [same]; exact report), same]

/-- A check that crashes on every build. -/
def brokenCheck : Check := ⟨"X001", fun _ => .error ⟨"KeyError", some "key"⟩⟩

/-- The broken check before those of the template backend. -/
def brokenRunner : Runner := Template.checks.foldl Runner.add (Runner.empty.add brokenCheck)

/-- A template whose only resource is a list. -/
def malformedTemplate : List (Value × Datum) :=
  [(.text "Resources", .table [(.text "bucket", .list [])])]

def malformedDocument : String := "\x7b\"Resources\": \x7b\"bucket\": []\x7d\x7d"

theorem templates_malformedDocument :
    Template.templates [(Template.backend, .text malformedDocument)] = .ok [malformedTemplate] := by
  have chars : malformedDocument.toList = _ := String.toList_ofList
  have read : Json.read malformedDocument = .ok (.table malformedTemplate) := by
    rw [Json.read, Json.readWithin, chars]
    cbv
  have parsed : [malformedDocument].mapM Template.parse? = .ok [some malformedTemplate] :=
    mapM_eq_ok_iff.mpr (.cons (by rw [Template.parse?, read]) .nil)
  show (do let parsed ← [malformedDocument].mapM Template.parse?; _) = _
  rw [parsed]
  rfl

theorem find_of_malformed {built : Build}
    (all : Template.templates built.outputs = .ok [malformedTemplate]) : ∀ c ∈ Template.checks,
    c.find built = .error ⟨"AttributeError", some "'list' object has no attribute 'get'"⟩ := by
  let fault := Template.noField (.list []) "get"
  have crash : ∀ find, find malformedTemplate = .error fault →
      Template.onTemplates find built = .error fault.toRaised := by
    intro find fails
    have failed : (do (← Template.templates built.outputs).mapM find) = .error fault := by
      rw [all]
      show [malformedTemplate].mapM find = _
      rw [List.mapM_cons, fails]
      rfl
    rw [Template.onTemplates, failed]
  exact List.forall_mem_cons.mpr
    ⟨crash _ rfl, List.forall_mem_singleton.mpr (crash _ rfl)⟩

/-- Each check that crashes has a finding of its own beside the others, and a runner that was run on
another build before reports no more than that. -/
theorem inspect_isolated_malformed :
    let built : Build := .ofOutputs [(Template.backend, .text malformedDocument)]
    let keyless : Raised := ⟨"KeyError", some "key"⟩
    let fieldless : Raised := ⟨"AttributeError", some "'list' object has no attribute 'get'"⟩
    (∀ c ∈ brokenRunner.checks, c.Caught built) ∧
      ((brokenRunner.runAll [] (.ofOutputs [])).result.1.runAll ["TPL002"] built).result.2 =
        .ok [Check.crash "X001" keyless, Check.crash "TPL001" fieldless] ∧
      ∃ first part last, brokenCheck.Adds ["TPL002"] built part ∧
        (inspect ["TPL002"] built brokenRunner.checks).result = .ok (first ++ part ++ last) ∧
        (inspect ["TPL002"] built Template.checks).result = .ok (first ++ last) := by
  intro built keyless fieldless
  have broken : brokenCheck.Caught built := by
    rintro r ⟨⟩
    rfl
  have caught : ∀ c ∈ brokenRunner.checks, c.Caught built :=
    List.forall_mem_cons.mpr ⟨broken, Template.caught_checks built⟩
  obtain ⟨-, place, -, again, -⟩ :=
    inspect_isolated ["TPL002"] built brokenRunner.checks caught
  obtain ⟨found, report, last⟩ := again brokenRunner [] (.ofOutputs []) rfl
  have crashes : ∀ c ∈ Template.checks, c.find built = .error fieldless :=
    find_of_malformed templates_malformedDocument
  have circular : (Template.circularReferences.run ["TPL002"] built).result =
      [Check.crash "TPL001" fieldless] := by
    rw [Check.run_of_not_mem (by decide), Check.findings, crashes _ (by simp [Template.checks])]
    rfl
  have added : (inspect ["TPL002"] built brokenRunner.checks).result =
      .ok [Check.crash "X001" keyless, Check.crash "TPL001" fieldless] := by
    rw [result_inspect ["TPL002"] caught]
    show Except.ok ([Check.crash "X001" keyless] ++
      ((Template.circularReferences.run ["TPL002"] built).result ++ ([] ++ []))) = _
    rw [circular]
    rfl
  refine ⟨caught, ?_, ?_⟩
  · rw [last, ← report, added]
  · obtain ⟨first, part, rest, adds, all, without, -⟩ := place [] brokenCheck Template.checks rfl
    exact ⟨first, part, rest, adds, all, without⟩

end Infra
