import Infra.Render.Interpolation

/-!
# Forms without a backend

References, outputs and intrinsic values have a form that no backend has shaped.

* `Store.referenceForm`, `Store.outputForm` : a reference, which has to be resolved, and an output;
* `Store.neutralForm` : the form of any value that has one.
-/

namespace Infra

/-- The marker of an output in a document. -/
def outputMarker : String := "tessera::output"

namespace Store

variable (s : Store)

/-- The form of a reference without a backend. -/
def referenceForm (id : Nat) : Except Fault Datum :=
  let r := s.reference id
  match r.name with
  | some name =>
    .ok (.record [("__attr_ref", .record [("entity", .text name), ("attribute", .text r.attr)])])
  | none => .error (.failed (.serialization
      ("Cannot serialize unresolved attribute reference \"" ++ r.attr
        ++ "\": logical name of the parent entity has not been assigned")))

/-- The form of an output. -/
def outputForm (id : Nat) : Datum := .record [(outputMarker, .text (s.output id).name)]

/-- The form of a value, if it has one that needs no backend. -/
def neutralForm (v : Value) : Option (Except Fault Datum) :=
  match v with
  | .reference id => some (s.referenceForm id)
  | .output id => some (.ok (s.outputForm id))
  | .intrinsic id => some (s.intrinsicForm id)
  | _ => none

end Store
end Infra
