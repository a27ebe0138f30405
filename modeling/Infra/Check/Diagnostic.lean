import Infra.Value

/-!
# Diagnostics

One finding of a rule or a check: what found it, how severe it is, what it says, and which entity
and backend it concerns.

* `Severity`, `Diagnostic` : the finding; `Diagnostic.report` : its entries in reports;
* `hasErrors` : whether any of some findings is an error.
-/

namespace Infra

/-- How severe a finding is. -/
inductive Severity
  | error | warning | info
  deriving DecidableEq, Repr

namespace Severity

/-- The written form of a severity. -/
def label : Severity → String
  | error => "error"
  | warning => "warning"
  | info => "info"

/-- The severity with a given written form. -/
def ofLabel? (label : String) : Option Severity :=
  [error, warning, info].find? (·.label == label)

end Severity

/-- One finding. -/
structure Diagnostic where
  check : String
  severity : Severity
  message : String
  entity : Option String
  backend : Option String
  deriving DecidableEq, Repr

/-- The entries of a finding in reports; what it does not concern is left out. -/
def Diagnostic.report (d : Diagnostic) : List (String × Datum) :=
  [("check_id", .text d.check), ("severity", .text d.severity.label), ("message", .text d.message)]
    ++ (d.entity.map fun name => ("entity", Datum.text name)).toList
    ++ (d.backend.map fun name => ("backend", Datum.text name)).toList

/-- Whether any finding is an error. -/
def hasErrors (found : List Diagnostic) : Bool := found.any fun d => d.severity == .error

end Infra
