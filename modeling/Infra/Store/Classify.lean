import Infra.Store.Basic

/-!
# Kinds of values

Every value belongs to one kind, which decides how it is walked and rendered.

* `ValueKind`, `Store.classify` : the kinds, and the kind of a value;
* `Constructor.description` : the one-line text of a constructor.
-/

namespace Infra

/-- What a value is to a walk. -/
inductive ValueKind
  | resource | property | reference | intrinsic | composite | output | plain
  deriving DecidableEq, Repr

/-- The written form of a kind. -/
def ValueKind.label : ValueKind → String
  | resource => "resource"
  | property => "property"
  | reference => "attr_ref"
  | intrinsic => "intrinsic"
  | composite => "composite"
  | output => "output"
  | plain => "plain"

/-- The written form of a kind of entity. -/
def Entity.Kind.label : Entity.Kind → String
  | .resource => "resource"
  | .property => "property"

/-- The name of the base of the constructors of a kind. -/
def Entity.Kind.base : Entity.Kind → String
  | .resource => "Resource"
  | .property => "Property"

/-- The one-line text of a constructor. -/
def Constructor.description (c : Constructor) : String :=
  c.kind.base ++ " " ++ c.entityType ++ " (" ++ c.backend ++ ")."

namespace Store

variable (s : Store)

/-- The kind of a value. -/
def classify : Value → ValueKind
  | .reference _ => .reference
  | .output _ => .output
  | .intrinsic _ => .intrinsic
  | .composite _ => .composite
  | .entity id =>
    match (s.entity id).kind with
    | .resource => .resource
    | .property => .property
  | _ => .plain

end Store
end Infra
