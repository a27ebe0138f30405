import Infra.Check.Run
import Infra.Graph.Cycle
import Infra.Template.Reference
import Infra.Template.Visitor

/-!
# Checks of rendered templates

* `Template.circularReferences` (TPL001) : each cycle of the references between resources;
* `Template.unknownReferences` (TPL002) : each reference to a name that the template does not
  define;
* `Template.checks` : both.

A malformed template makes a check crash with a fault that says what the part could not do.
-/

namespace Infra.Template

/-- The templates among the documents of the backend that hold resources. -/
def templates (outputs : Outputs) : Except Fault (List (List (Value × Datum))) := do
  match outputs.lookup backend with
  | none => .ok []
  | some rendered =>
    let documents := rendered.normalize
    let parsed ← (documents.primary :: documents.files.map (·.2)).mapM parse?
    .ok (parsed.filterMap fun template? => template?.filter fun template =>
      !((template.lookup (.text "Resources")).getD .null).isFalsy)

/-- The findings of a check on one template after the other. -/
def onTemplates (find : List (Value × Datum) → Except Fault (List Diagnostic))
    (built : Build) : Except Raised (List Diagnostic) :=
  match (do (← templates built.outputs).mapM find) with
  | .ok found => .ok found.flatten
  | .error fault => .error fault.toRaised

/-- The finding that reports a cycle. -/
def cycleFound (cycle : List String) : Diagnostic :=
  ⟨"TPL001", .error,
    "Circular resource dependency: " ++ String.intercalate " -> " (cycle ++ cycle.take 1),
    cycle.head?, some backend⟩

/-- Finds the cycles of the references between the resources of a template. -/
def findCircular (template : List (Value × Datum)) : Except Fault (List Diagnostic) := do
  .ok ((Graph.cycles (← referenceGraph template)).map cycleFound)

/-- The finding that reports a reference to an unknown name. -/
def unknownFound (id target : String) : Diagnostic :=
  ⟨"TPL002", .warning,
    "Resource \"" ++ id ++ "\" references \"" ++ target
      ++ "\", which is not defined in the template",
    some id, some backend⟩

/-- Finds the references of a template to names that it does not define. -/
def findUnknown (template : List (Value × Datum)) : Except Fault (List Diagnostic) := do
  let resources ← elementsOf (section? template "Resources")
  let parameters ← elementsOf (section? template "Parameters")
  let known := (resources ++ parameters).filterMap (·.text?)
  let entries ← entriesOf (section? template "Resources") "items"
  let found ← entries.mapM fun resource => do
    let targets := references (← entry resource.2 "Properties")
    let unknown := Text.sorted (Text.dedupe (targets.filter (!known.contains ·)))
    .ok (unknown.map (unknownFound (keyName resource.1)))
  .ok found.flatten

def circularReferences : Check := ⟨"TPL001", onTemplates findCircular⟩

def unknownReferences : Check := ⟨"TPL002", onTemplates findUnknown⟩

/-- The checks of the backend. -/
def checks : List Check := [circularReferences, unknownReferences]

end Infra.Template
