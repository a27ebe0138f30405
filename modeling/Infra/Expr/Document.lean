import Infra.Expr.Basic
import Infra.Decimal.Reading
import Infra.Json.Reader

/-!
# Documents of expressions

An expression is spelled by a tree: a scalar is itself, a list is a new list, and a table tells by
its entry `t` which kind of expression it is and holds its parts under fixed names. Entries whose
order matters are lists of pairs.

* `Expr.bytesOfHex` : the bytes that hexadecimal digits spell;
* `Expr.ofDatum` : the expression that a tree spells.

Parts lie deeper than their whole, so the depth of the tree suffices for reading it.
-/

namespace Infra.Expr

open Decimal (Binary64)

/-- The bytes that pairs of hexadecimal digits spell. -/
def bytesOfHex : List Char → List UInt8
  | a :: b :: rest => UInt8.ofNat ((Json.hexNumber? [a, b]).getD 0) :: bytesOfHex rest
  | _ => []

/-- The text of an entry, if it is one. -/
def text? (d : Datum) (name : String) : Option String := (d.field name).text?

/-- The integer that a datum is. -/
def intOf : Datum → Int
  | .leaf (.int n) => n
  | _ => 0

/-- The parameters of a composite: each a name, or a name with a default. -/
def paramsOf (read : Datum → Expr) (d : Datum) : List (String × Option Expr) :=
  d.items.map fun param =>
    match param.items with
    | [] => ("", none)
    | [name] => (name.textD, none)
    | name :: default :: _ => (name.textD, some (read default))

/-- The expression that a table of some kind spells, given how its parts are read. -/
def ofTable (read : Datum → Expr) (d : Datum) : Expr :=
  let part (name : String) : Expr := read (d.field name)
  let part? (name : String) : Option Expr :=
    if (d.field name).isNull then none else some (part name)
  let parts (name : String) : List Expr := (d.field name).items.map read
  let named (name : String) : List (String × Expr) :=
    (d.field name).pairs.map fun entry => (entry.1, read entry.2)
  let text (name : String) : String := (d.field name).textD
  match text "t" with
  | "dict" => .mapping ((d.field "v").items.map fun entry => (read entry.pair.1, read entry.pair.2))
  | "tuple" => .sequence .tuple (parts "v")
  | "set" => .sequence .set (parts "v")
  | "frozenset" => .sequence .frozenSet (parts "v")
  | "float" => .literal (match Binary64.read? (text "v") with
    | some x => .float x
    | none => .null)
  | "bytes" => .literal (.bytes (bytesOfHex (text "v").toList))
  | "module" => .literal .module
  | "function" => .literal .function
  | "var" => .variable (text "v")
  | "resource" => .resource (text "b") (text "y") (part? "attrs") (named "props")
  | "property" => .property (text "b") (text "y") (part? "attrs") (named "props")
  | "rtype" => .resourceType (text "y") (text "b") (part? "attrs") (text? d "name")
  | "ptype" => .propertyType (text "y") (text "b") (text? d "name")
  | "tresource" => .resourceType (text "y") "template" (part? "attrs") none
  | "tprop" => .propertyType (text "y") "template" none
  | "new" => .construct (part "cls") (named "props") (named "kw")
  | "parameter" => .parameter (text? d "type") (part? "default") (text? d "description")
  | "stack" => .stack (text "path") (named "parameters") (part? "outputs")
  | "child" => .child (text "b") (text "y") (text "path") (part? "outputs") (named "options")
      (named "props") (text? d "format")
  | "getattr" => .field (part "of") (text "name")
  | "attr" => .declared (part "of") (text "name")
  | "props" => .prop (part "of") (text "key")
  | "ref" => .reference (intOf (d.field "h")) (text "b") (text "a")
  | "output" => .output (part "of") (text "name")
  | "auto" => .automaticOutput (part "of") (text "name")
  | "pseudo" =>
    match text? d "key" with
    | some key => .standingPseudo key
    | none => .pseudo (text "ref")
  | "sub" => .interpolation (parts "v")
  | "rawsub" => .rawInterpolation (d.field "parts").textList (parts "values")
  | "define" => .define (text? d "name") ((text? d "fname").getD "factory")
      ((d.field "decorator").flag false || (d.field "register").flag true)
      (paramsOf read (d.field "params")) (named "locals") (named "members")
  | "call" => .call (part "of") (parts "args") (named "kw")
  | "defaults" => .withDefaults (part "of") (named "kw")
  | "propagate" => .propagate (part "of") (named "kw")
  | "concat" => .concat (parts "v")
  | "str" => .shown (part "of")
  | _ => .literal .null

/-- The expression that a tree spells, to some depth. -/
def ofDatumTo : Nat → Datum → Expr
  | _, .leaf v => .literal v
  | 0, _ => .literal .null
  | depth + 1, .list items => .sequence .list (items.map (ofDatumTo depth))
  | depth + 1, d => ofTable (ofDatumTo depth) d

/-- The expression that a tree spells. -/
def ofDatum (d : Datum) : Expr := ofDatumTo d.depth d

end Infra.Expr
