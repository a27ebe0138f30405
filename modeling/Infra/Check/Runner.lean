import Infra.Check.Run

/-!
# Runners of checks

A runner holds checks and the findings of its last run. A check that crashes is reported by a
finding of its own, but an error that ends the process is none: it ends the run, and the runner
keeps what it had found before.

* `Check.interrupt?` : the error by which a check ends a run;
* `inspect` : checks one after the other, up to such an error;
* `Runner.add`, `Runner.runAll`, `Runner.hasErrors` : the operations of a runner.
-/

namespace Infra

/-- The error by which a check ends a run. A disabled check is not asked. -/
def Check.interrupt? (disabled : List String) (built : Build) (c : Check) : Option Raised :=
  if disabled.contains c.id then none
  else
    match c.find built with
    | .error r => if r.isInterrupt then some r else none
    | .ok _ => none

/-- Runs checks one after the other, up to an error that ends the run. -/
def inspect (disabled : List String) (built : Build) :
    List Check → Logged (Except Raised (List Diagnostic))
  | [] => pure (.ok [])
  | c :: rest =>
    match c.interrupt? disabled built with
    | some r => pure (.error r)
    | none => do
      let found ← c.run disabled built
      let later ← inspect disabled built rest
      pure (later.map (found ++ ·))

/-- Checks, and what they found when they were last run. -/
structure Runner where
  checks : List Check
  found : List Diagnostic

namespace Runner

def empty : Runner := ⟨[], []⟩

/-- Adds a check, which is run after the others. -/
def add (r : Runner) (c : Check) : Runner := { r with checks := r.checks ++ [c] }

/-- Runs all checks. The findings take the place of those of an earlier run. -/
def runAll (r : Runner) (disabled : List String) (built : Build) :
    Logged (Runner × Except Raised (List Diagnostic)) := do
  match ← inspect disabled built r.checks with
  | .ok found => pure ({ r with found := found }, .ok found)
  | .error raised => pure (r, .error raised)

/-- Whether the last run found an error. -/
def hasErrors (r : Runner) : Bool := Infra.hasErrors r.found

end Runner
end Infra
