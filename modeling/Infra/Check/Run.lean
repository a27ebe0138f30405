import Infra.Check.Diagnostic
import Infra.Fault
import Infra.Log.Event
import Infra.Namespace

/-!
# Checks of a finished build

A check looks at a finished build and returns its findings. Checks are isolated: one that crashes is
reported by one finding of its own, and the others still run.

* `Rendered.primary`, `Rendered.normalize`, `Rendering.documents` : the documents of one backend;
* `Build` : a finished build; `Check` : a check; `Check.findings` : its findings, or the one that
  reports its crash;
* `Check.run`, `runChecks` : one check unless it is disabled, and all checks in order.
-/

namespace Infra

namespace Rendered

/-- The primary document. -/
def primary : Rendered → String
  | text primary => primary
  | full documents => documents.primary

/-- The documents of a backend in a common form. -/
def normalize : Rendered → Rendering
  | text primary => ⟨primary, []⟩
  | full documents => documents

end Rendered

/-- All documents by file name; the primary one has no name. -/
def Rendering.documents (r : Rendering) : List (String × String) :=
  r.files.foldl (fun all file => Named.insert all file.1 file.2) [("", r.primary)]

/-- The documents of a build by backend. -/
abbrev Outputs := List (String × Rendered)

/-- The primary document of each backend. -/
def Outputs.primaries (outputs : Outputs) : List (String × String) :=
  outputs.map fun entry => (entry.1, entry.2.primary)

/-- What a check sees of a finished build: its documents, and its entities with the store that they
are in. -/
structure Build where
  outputs : Outputs
  entities : Namespace
  store : Store

/-- A build of documents without entities. -/
def Build.ofOutputs (outputs : Outputs) : Build := ⟨outputs, [], .initial⟩

/-- A check of a finished build. -/
structure Check where
  id : String
  find : Build → Except Raised (List Diagnostic)

namespace Check

/-- The finding that reports the crash of a check. -/
def crash (id : String) (r : Raised) : Diagnostic :=
  ⟨id, .error, "Check " ++ id ++ " failed: " ++ r.label ++ ": " ++ r.message, none, none⟩

/-- The findings of a check, or the one that reports its crash. -/
def findings (c : Check) (built : Build) : Logged (List Diagnostic) :=
  match c.find built with
  | .ok found => ⟨[], found⟩
  | .error r =>
    ⟨[⟨.error, "tessera.validation", "post_synth_check_failed",
      [("check_id", .text c.id), ("exception", .text "<traceback>")]⟩], [crash c.id r]⟩

/-- The findings of a check, none if it is disabled. -/
def run (disabled : List String) (built : Build) (c : Check) : Logged (List Diagnostic) :=
  if disabled.contains c.id then pure [] else c.findings built

end Check

/-- The findings of checks, in the order of the checks. -/
def runChecks (checks : List Check) (disabled : List String) (built : Build) :
    Logged (List Diagnostic) := do
  let found ← checks.mapM (Check.run disabled built)
  pure found.flatten

end Infra
