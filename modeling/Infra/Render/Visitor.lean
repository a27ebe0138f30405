import Infra.Render.Neutral
import Infra.Store.Key

/-!
# Rendering of values

A backend renders values by a visitor: it says how a reference to an attribute, a resource and the
properties of a property entity are written, and how keys are. Containers are rendered item by
item, intrinsic values and outputs have a form of their own, and scalars stand for themselves.

* `Visitor` : the choices of a backend;
* `Store.render` : the rendered form of a value.

A value that contains itself has no rendered form: a depth of one more than the number of
containers suffices for any other.
-/

namespace Infra

/-- The choices of a backend. -/
structure Visitor where
  /-- An attribute of the entity of a name. -/
  reference : String → String → Datum
  /-- The resource of a name. -/
  resource : String → Datum
  /-- A key of a mapping. -/
  key : Value → Except Fault Value
  /-- The properties of a property entity, given how values are rendered: the mapping that holds
  them, and its entries. -/
  inline : Value → List (Value × Value) → (Value → Except Fault Datum) → Except Fault Datum

/-- Renders entries one after the other: first the key, then the value. -/
def renderEntries (key : Value → Except Fault Value) (render : Value → Except Fault Datum)
    (entries : List (Value × Value)) : Except Fault (List (Value × Datum)) :=
  entries.mapM fun entry => do
    let k ← key entry.1
    .ok (k, ← render entry.2)

namespace Store

variable (s : Store)

/-- The rendered form of a value, to some depth. -/
def renderTo (visitor : Visitor) : Nat → Value → Except Fault Datum
  | 0, _ => .error .tooDeep
  | depth + 1, v =>
    match v with
    | .reference id =>
      let r := s.reference id
      match r.name with
      | some name => .ok (visitor.reference name r.attr)
      | none => .error (.failed (.serialization
          ("Cannot serialize attribute reference \"" ++ r.attr ++ "\": logical name not set")))
    | .intrinsic id => s.intrinsicForm id
    | .output id => .ok (s.outputForm id)
    | .entity id =>
      let e := s.entity id
      match e.kind, e.name with
      | .resource, some name => .ok (visitor.resource name)
      | .resource, none => .error (.failed (.serialization
          ("Cannot serialize a reference to " ++ e.entityType ++ ": entity has no logical name")))
      | .property, _ => visitor.inline (.mapping e.props) (s.mapping e.props) (renderTo visitor depth)
    | .composite id =>
      .error (.failed (.serialization
        ("Cannot serialize composite " ++ Text.quoted (s.definition (s.composite id).definition).name
          ++ ": composites must be exported to be expanded")))
    | .sequence id => .list <$> (s.sequence id).items.mapM (renderTo visitor depth)
    | .mapping id => do
      let entries ← renderEntries visitor.key (renderTo visitor depth) (s.mapping id)
      .ok (.table (entries.foldl (fun all entry => Entries.insert all entry.1 entry.2) []))
    | _ => .ok (.leaf v)

/-- The rendered form of a value. -/
def render (visitor : Visitor) (v : Value) : Except Fault Datum :=
  s.renderTo visitor (s.containerCount + 2) v

end Store
end Infra
