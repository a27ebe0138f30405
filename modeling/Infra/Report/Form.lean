import Infra.Json.Writer
import Infra.Store.Classify
import Infra.Store.Display

/-!
# Reports of values

A report shows values as a tree of JSON: a scalar and a list are themselves, and any other value is
a table whose entry `t` tells its kind. Entries are lists of pairs, the items of a set are sorted
by their written form, and a container met inside itself is shown as a cycle.

* `Store.report` : the report of a value;
* `Store.reportDatum`, `Store.reportEntries` : those of trees and of named trees.

The containers around a value are all different, so the number of objects that hold values is a
depth that suffices.
-/

namespace Infra

/-- A table of some kind. -/
def Datum.tagged (tag : String) (entries : List (String × Datum)) : Datum :=
  .record (("t", .text tag) :: entries)

/-- A text, or null where there is none. -/
def Datum.optional (text : Option String) : Datum :=
  match text with
  | some t => .text t
  | none => .null

/-- A tree on one line, as its items are sorted by. -/
def Datum.lineText (d : Datum) : String :=
  match Json.writeAt .line 0 d with
  | .ok text => text
  | .error _ => ""

namespace Store

variable (s : Store)

/-- The report of an entity. -/
def reportEntity (id : Nat) : Datum :=
  let e := s.entity id
  .tagged "entity" [("h", .int (handle id)), ("n", .optional e.name), ("b", .text e.backend),
    ("y", .text e.entityType), ("k", .text e.kind.label)]

/-- The report of a reference. -/
def reportReference (id : Nat) : Datum :=
  let r := s.reference id
  .tagged "attr" [("h", .int r.parent), ("b", .text r.backend), ("a", .text r.attr),
    ("n", .optional r.name)]

/-- The report of an output. -/
def reportOutput (id : Nat) : Datum :=
  let o := s.output id
  .tagged "output" [("n", .text o.name), ("h", .int o.parent), ("b", .text o.backend),
    ("a", .text o.attr), ("s", .text o.source)]

/-- The report of a sequence with the reports of its items. -/
def reportSequence (shape : Shape) (items : List Datum) : Datum :=
  match shape with
  | .list => .list items
  | .tuple => .tagged "tuple" [("v", .list items)]
  | .set | .frozenSet =>
    .tagged "set" [("v", .list (items.mergeSort fun a b => decide (a.lineText ≤ b.lineText)))]

/-- The report of a value inside the containers `around`, to some depth. -/
def reportInside (around : List Value) : Nat → Value → Datum
  | 0, _ => .tagged "cycle" []
  | depth + 1, v =>
    let within (inner : Value) : Datum := reportInside (v :: around) depth inner
    if around.contains v then .tagged "cycle" []
    else
      match v with
      | .float x => .tagged "float" [("v", .text x.text)]
      | .bytes bs => .tagged "bytes" [("v", .text (Text.hexOfBytes bs))]
      | .path p => .tagged "path" [("v", .text p)]
      | .moment m => .text m
      | .module => .tagged "module" []
      | .function => .tagged "function" []
      | .sequence id => reportSequence (s.sequence id).shape ((s.sequence id).items.map within)
      | .mapping id => .tagged "dict" [("v", .list ((s.mapping id).map fun entry =>
          .list [within entry.1, within entry.2]))]
      | .entity id => s.reportEntity id
      | .reference id => s.reportReference id
      | .output id => s.reportOutput id
      | .intrinsic id =>
        match s.intrinsic id with
        | .pseudo ref => .tagged "pseudo" [("ref", .text ref)]
        | .interpolation parts values =>
          .tagged "sub" [("parts", .texts parts), ("values", .list (values.map within))]
      | .constructor id => .tagged "class" [("name", .text (s.constructor id).label)]
      | .definition id => .tagged "definition" [("name", .text (s.definition id).name)]
      | .composite id =>
        let c := s.composite id
        let member : Member → Value
          | .entity e => .entity e
          | .composite inner => .composite inner
        .tagged "composite" [("name", .text (s.definition c.definition).name),
          ("members", .list (c.members.map fun m => .list [.text m.1, within (member m.2)]))]
      | _ => .leaf v

/-- The report of a value. -/
def report (v : Value) : Datum :=
  s.reportInside [] (s.containerCount + s.intrinsics.size + s.composites.size + 2) v

mutual

/-- The report of a tree. -/
def reportDatum : Datum → Datum
  | .leaf v => s.report v
  | .list items => .list (reportItems items)
  | .table entries => .tagged "dict" [("v", .list (reportPairs entries))]

/-- The reports of items. -/
def reportItems : List Datum → List Datum
  | [] => []
  | item :: rest => reportDatum item :: reportItems rest

/-- The reports of entries. -/
def reportPairs : List (Value × Datum) → List Datum
  | [] => []
  | (key, value) :: rest => .list [s.report key, reportDatum value] :: reportPairs rest

end

/-- The report of named trees. -/
def reportEntries (entries : List (String × Datum)) : Datum :=
  .list (entries.map fun entry => .list [.text entry.1, s.reportDatum entry.2])

/-- The report of named values. -/
def reportNamed (entries : List (String × Value)) : Datum :=
  .list (entries.map fun entry => .list [.text entry.1, s.report entry.2])

/-- The report of a fault: its label, its text where the library words it, and the entries of a
failure. -/
def reportFault (f : Fault) : Datum :=
  match f with
  | .failed failure =>
    match failure.report? with
    | some entries => .record [("error", .text f.label), ("message", .text failure.message),
        ("info", s.reportEntries entries)]
    | none => .record [("error", .text f.label)]
  | .invalidSettings findings =>
    .record [("error", .text f.label), ("errors", .list (findings.map fun finding =>
      .list [.texts finding.1, .text finding.2]))]
  | _ =>
    if f.isWorded then .record [("error", .text f.label), ("message", .text f.wording)]
    else .record [("error", .text f.label)]

end Store
end Infra
