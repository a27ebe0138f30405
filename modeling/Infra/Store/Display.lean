import Infra.Decimal.Shortest
import Infra.Path
import Infra.Store.Basic

/-!
# Texts of values

The written form of a value (`Store.written`), as it stands in messages, and its text
(`Store.shown`), which differs for texts and pseudo-parameters: they are not quoted.

A container met inside itself is written as an ellipsis in its brackets. The containers around a
value are therefore all different, and a depth of `Store.containerCount` always suffices. Integers
are written in full here, however many digits they have; documents have a limit (`Json.digitLimit`).
-/

namespace Infra

open Text (quoted quotedBytes)

/-- The kinds of values that have the same written form for every object. -/
def Value.scalarText : Value → String
  | .null => "None"
  | .bool b => if b then "True" else "False"
  | .int n => toString n
  | .float x => x.text
  | .text s => quoted s
  | .bytes bs => quotedBytes bs
  | .path s => "PosixPath(" ++ quoted s ++ ")"
  | .moment s => s
  | .module => "<module>"
  | .function => "<function>"
  | _ => ""

/-- Items between brackets. -/
def bracketed (opening closing : String) (items : List String) : String :=
  opening ++ String.intercalate ", " items ++ closing

/-- The written form of a container of the shape with the given items. -/
def Shape.written (shape : Shape) (items : List String) : String :=
  match shape with
  | .list => bracketed "[" "]" items
  | .tuple =>
    match items with
    | [item] => "(" ++ item ++ ",)"
    | _ => bracketed "(" ")" items
  | .set => if items.isEmpty then "set()" else bracketed "\x7b" "\x7d" items
  | .frozenSet =>
    if items.isEmpty then "frozenset()" else bracketed "frozenset(\x7b" "\x7d)" items

/-- The written form of a container inside itself. -/
def Shape.ellipsis : Shape → String
  | .list => "[...]"
  | .tuple => "(...)"
  | .set => "set(...)"
  | .frozenSet => "frozenset(...)"

/-- What stands for an object without a name: its number. -/
def labelOr (name : Option String) (number : Int) : String :=
  match name with
  | some text => if text.isEmpty then "#" ++ toString number else text
  | none => "#" ++ toString number

namespace Store

variable (s : Store)

/-- The written form of an entity. -/
def entityText (id : Nat) : String :=
  let e := s.entity id
  e.label ++ "(" ++ e.backend ++ ":" ++ e.entityType ++ " " ++ labelOr e.name (handle id) ++ ")"

/-- The written form of a reference. -/
def referenceText (id : Nat) : String :=
  let r := s.reference id
  "AttrRef(" ++ labelOr r.name r.parent ++ "." ++ r.attr ++ ")"

/-- The written form of an output. -/
def outputText (id : Nat) : String :=
  let o := s.output id
  let source := if o.source.isEmpty then "#" ++ toString o.parent else o.source
  "BackendOutput(" ++ quoted o.name ++ " <- " ++ o.backend ++ ":" ++ source ++ "." ++ o.attr ++ ")"

/-- The written form of a composite. -/
def compositeText (id : Nat) : String :=
  let c := s.composite id
  "CompositeInstance(" ++ (s.definition c.definition).name ++ ", members="
    ++ bracketed "[" "]" (c.members.map fun member => quoted member.1) ++ ")"

/-- The written form of a definition. -/
def definitionText (id : Nat) : String :=
  "Composite(" ++ quoted (s.definition id).name ++ ")"

/-- The written form of an intrinsic value. -/
def intrinsicText (id : Nat) : String :=
  match s.intrinsic id with
  | .pseudo ref => "PseudoParameter(" ++ quoted ref ++ ")"
  | .interpolation .. => "<Sub object>"

/-- The written form of a value inside the containers `around`, to some depth. -/
def writtenInside (around : List Value) : Nat → Value → String
  | 0, _ => "..."
  | depth + 1, v =>
    match v with
    | .sequence id =>
      let q := s.sequence id
      if around.contains v then q.shape.ellipsis
      else q.shape.written (q.items.map (writtenInside (v :: around) depth))
    | .mapping id =>
      if around.contains v then "\x7b...\x7d"
      else bracketed "\x7b" "\x7d" ((s.mapping id).map fun entry =>
        writtenInside (v :: around) depth entry.1 ++ ": "
          ++ writtenInside (v :: around) depth entry.2)
    | .entity id => s.entityText id
    | .reference id => s.referenceText id
    | .output id => s.outputText id
    | .intrinsic id => s.intrinsicText id
    | .constructor id => "<class 'tessera.model.declarable." ++ (s.constructor id).label ++ "'>"
    | .definition id => s.definitionText id
    | .composite id => s.compositeText id
    | _ => v.scalarText

/-- The written form of a value. -/
def written (v : Value) : String := s.writtenInside [] (s.containerCount + 1) v

/-- The text of a value. -/
def shown (v : Value) : String :=
  match v with
  | .text text => text
  | .path text => text
  | .intrinsic id =>
    match s.intrinsic id with
    | .pseudo ref => "$\x7b" ++ ref ++ "\x7d"
    | .interpolation .. => s.written v
  | _ => s.written v

end Store
end Infra
