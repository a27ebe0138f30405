import Infra.Store.Display

/-!
# Interpolated texts

An interpolated text alternates parts with values. A reference shows by the name of its entity and
its attribute, a pseudo-parameter by what it refers to, and any other value by its text; an entity
has no text of its own here.

* `Interpolation` : how references and pseudo-parameters are written;
* `weave` : parts with the texts of values between them;
* `Store.interpolate` : the text of parts and values;
* `Store.intrinsicForm` : the rendered form of an intrinsic value.

An intrinsic value is made after the values it holds, so a depth of the number of intrinsic values
always suffices.
-/

namespace Infra

/-- How an interpolated text writes the attribute of a named entity, and a plain reference. -/
structure Interpolation where
  ofAttribute : String → String → String
  ofName : String → String

/-- The style of templates: both forms stand between braces after a dollar sign. -/
def Interpolation.template : Interpolation where
  ofAttribute name attr := "$\x7b" ++ name ++ "." ++ attr ++ "\x7d"
  ofName ref := "$\x7b" ++ ref ++ "\x7d"

/-- The parts in order, each followed by the next of the texts while there are any. -/
def weave : List String → List String → String
  | [], _ => ""
  | part :: parts, [] => part ++ weave parts []
  | part :: parts, text :: texts => part ++ text ++ weave parts texts

namespace Store

variable (s : Store)

/-- The text of a value inside an interpolated text, to some depth of nested interpolations. -/
def valueTextTo (style : Interpolation) : Nat → Value → Except Fault String
  | 0, _ => .error .tooDeep
  | depth + 1, v =>
    match v with
    | .reference id =>
      let r := s.reference id
      match r.name with
      | some name => .ok (style.ofAttribute name r.attr)
      | none => .error (.failed (.serialization
          ("Cannot interpolate attribute reference \"" ++ r.attr ++ "\": logical name not set")))
    | .intrinsic id =>
      match s.intrinsic id with
      | .pseudo ref => .ok (style.ofName ref)
      | .interpolation parts values => do
        let _ ← (values.take parts.length).mapM (valueTextTo .template depth)
        .ok (s.shown v)
    | .entity _ => .error (.failed (.serialization
        "Cannot embed an entity directly in an interpolated string; use one of its attributes"))
    | _ => .ok (s.shown v)

/-- The text of a value inside an interpolated text. -/
def valueText (style : Interpolation) (v : Value) : Except Fault String :=
  s.valueTextTo style (s.intrinsics.size + 2) v

/-- The text of parts and values. A value without a part before it is left out. -/
def interpolate (style : Interpolation) (parts : List String) (values : List Value) :
    Except Fault String :=
  weave parts <$> (values.take parts.length).mapM (s.valueText style)

/-- The rendered form of an intrinsic value. -/
def intrinsicForm (id : Nat) : Except Fault Datum :=
  match s.intrinsic id with
  | .pseudo ref => .ok (.record [("Ref", .text ref)])
  | .interpolation parts values => do
    .ok (.record [("Fn::Sub", .text (← s.interpolate .template parts values))])

end Store
end Infra
