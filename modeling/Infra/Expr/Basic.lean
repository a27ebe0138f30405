import Infra.Value

/-!
# Value expressions

How a declaration spells its values: scalars and containers, the constructors of entities and of
references to them, and composites, whose members are expressions over their parameters.

An expression is evaluated against a store (`Infra.Expr.Evaluation`); the type stands before the
store because a composite definition keeps the expressions of its members.
-/

namespace Infra

/-- The container that a sequence of values is. -/
inductive Shape
  | list | tuple | set | frozenSet
  deriving DecidableEq, Repr

/-- A value expression. -/
inductive Expr
  /-- A scalar. -/
  | literal (v : Value)
  /-- A new list, tuple or set of the items. -/
  | sequence (shape : Shape) (items : List Expr)
  /-- A new mapping. -/
  | mapping (entries : List (Expr × Expr))
  /-- A variable. -/
  | variable (name : String)
  /-- A new resource; `attributes` declares its accessors. -/
  | resource (backend entityType : String) (attributes : Option Expr)
      (props : List (String × Expr))
  /-- A new property entity. -/
  | property (backend entityType : String) (attributes : Option Expr)
      (props : List (String × Expr))
  /-- A constructor of resources of one type. -/
  | resourceType (entityType backend : String) (attributes : Option Expr) (name : Option String)
  /-- A constructor of property entities of one type. -/
  | propertyType (entityType backend : String) (name : Option String)
  /-- A new entity of a constructor. -/
  | construct (constructor : Expr) (props keywords : List (String × Expr))
  /-- A template parameter. -/
  | parameter (type : Option String) (default : Option Expr) (description : Option String)
  /-- A child project deployed as a nested stack. -/
  | stack (path : String) (parameters : List (String × Expr)) (outputs : Option Expr)
  /-- A child project. -/
  | child (backend entityType path : String) (outputs : Option Expr)
      (options props : List (String × Expr)) (form : Option String)
  /-- A field of an object. -/
  | field (object : Expr) (name : String)
  /-- The attribute reference that an entity declares under a name. -/
  | declared (object : Expr) (name : String)
  /-- A property of an entity. -/
  | prop (object : Expr) (key : String)
  /-- A bare attribute reference. -/
  | reference (handle : Int) (backend attr : String)
  /-- A named output of an attribute reference. -/
  | output (reference : Expr) (name : String)
  /-- The output of an attribute reference that is named after its entity. -/
  | automaticOutput (reference : Expr) (entity : String)
  /-- One of the standing pseudo-parameters. -/
  | standingPseudo (key : String)
  /-- A new pseudo-parameter. -/
  | pseudo (ref : String)
  /-- An interpolated text of pieces. -/
  | interpolation (pieces : List Expr)
  /-- An interpolated text of given parts and values. -/
  | rawInterpolation (parts : List String) (values : List Expr)
  /-- A composite definition. -/
  | define (name : Option String) (factory : String) (registered : Bool)
      (params : List (String × Option Expr)) (locals members : List (String × Expr))
  /-- A call of a composite definition. -/
  | call (definition : Expr) (arguments : List Expr) (keywords : List (String × Expr))
  /-- A composite definition with other defaults. -/
  | withDefaults (definition : Expr) (keywords : List (String × Expr))
  /-- A composite instance with properties that its members share. -/
  | propagate (composite : Expr) (keywords : List (String × Expr))
  /-- The texts of values, joined. -/
  | concat (pieces : List Expr)
  /-- The text of a value. -/
  | shown (v : Expr)
  deriving Repr

instance : Inhabited Expr := ⟨.literal .null⟩

end Infra
