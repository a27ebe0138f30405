import Infra.Fault
import Infra.Graph.Basic
import Infra.Json.Reader

/-!
# References of a rendered template

Which resources the resources of a template refer to, read off its document: a `Ref` or a
`Fn::GetAtt` anywhere in the properties, and the entries of `DependsOn`.

* `Template.references` : the names that a part of a template refers to;
* `Template.dependsOn` : the names that a resource lists itself;
* `Template.referenceGraph` : the graph of the resources;
* `Template.parse?` : the template in a document.
-/

namespace Infra.Template

/-- What the references to pseudo-parameters begin with. -/
def pseudoMark : String := "Template::"

/-- The name that a `Ref` names. -/
def refTarget? (entries : List (Value × Datum)) : Option String :=
  match entries.lookup (.text "Ref") with
  | some (.leaf (.text name)) => if name.startsWith pseudoMark then none else some name
  | _ => none

/-- The name that a `Fn::GetAtt` names: the first item of a list, or what stands before the first
dot of a text. -/
def getAttTarget? (entries : List (Value × Datum)) : Option String :=
  match entries.lookup (.text "Fn::GetAtt") with
  | some (.list (.leaf (.text name) :: _)) => some name
  | some (.leaf (.text path)) =>
    if path.isEmpty then none else some (String.ofList (path.toList.takeWhile (· != '.')))
  | _ => none

mutual

/-- The names that a part of a template refers to, in the order in which they are met. -/
def references : Datum → List String
  | .leaf _ => []
  | .list items => referencesOfItems items
  | .table entries =>
    (refTarget? entries).toList ++ (getAttTarget? entries).toList ++ referencesOfEntries entries

/-- The names that items refer to. -/
def referencesOfItems : List Datum → List String
  | [] => []
  | item :: rest => references item ++ referencesOfItems rest

/-- The names that the values of entries refer to. -/
def referencesOfEntries : List (Value × Datum) → List String
  | [] => []
  | (_, value) :: rest => references value ++ referencesOfEntries rest

end

/-- The name of the type of a datum in messages. -/
def typeName : Datum → String
  | .leaf .null => "NoneType"
  | .leaf (.bool _) => "bool"
  | .leaf (.int _) => "int"
  | .leaf (.float _) => "float"
  | .leaf _ => "str"
  | .list _ => "list"
  | .table _ => "dict"

/-- The fault of a datum without a field. -/
def noField (d : Datum) (field : String) : Fault :=
  .noField ("'" ++ typeName d ++ "' object has no attribute '" ++ field ++ "'")

/-- The entries of a datum that has to be a table, where `field` is asked of it. -/
def entriesOf (d : Datum) (field : String) : Except Fault (List (Value × Datum)) :=
  match d with
  | .table entries => .ok entries
  | _ => .error (noField d field)

/-- The items that a datum yields one after the other. -/
def itemsOf (d : Datum) : Except Fault (List Datum) :=
  match d with
  | .list items => .ok items
  | .table entries => .ok (entries.map fun entry => .leaf entry.1)
  | .leaf (.text text) => .ok (text.toList.map fun c => .text (String.singleton c))
  | _ => .error (.wrongType ("'" ++ typeName d ++ "' object is not iterable"))

/-- The items that a datum yields, where each has to be fit for a set. -/
def elementsOf (d : Datum) : Except Fault (List Value) := do
  let items ← itemsOf d
  items.mapM fun item =>
    match item with
    | .leaf v => .ok v
    | _ => .error (.wrongType ("unhashable type: '" ++ typeName item ++ "'"))

/-- The entry of a resource under a name, where the resource has to be a table. -/
def entry (resource : Datum) (name : String) : Except Fault Datum := do
  let entries ← entriesOf resource "get"
  .ok ((entries.lookup (.text name)).getD .null)

/-- What a resource lists under `DependsOn`: one text, or the items of a collection. -/
def dependsOn (resource : Datum) : Except Fault (List Value) := do
  let listed ← entry resource "DependsOn"
  match listed with
  | .leaf (.text name) => .ok (if name.isEmpty then [] else [.text name])
  | _ => if listed.isFalsy then .ok [] else elementsOf listed

/-- The value under a name, or an empty table where it counts as unset. -/
def section? (template : List (Value × Datum)) (name : String) : Datum :=
  match template.lookup (.text name) with
  | some d => if d.isFalsy then .table [] else d
  | none => .table []

/-- The text of a key of a template. -/
def keyName : Value → String
  | .text name => name
  | _ => ""

/-- The resources that each resource refers to, itself excepted. -/
def referenceGraph (template : List (Value × Datum)) : Except Fault Graph := do
  let resources ← entriesOf (section? template "Resources") "items"
  let ids := resources.map fun resource => keyName resource.1
  resources.mapM fun resource => do
    let id := keyName resource.1
    let found := references (← entry resource.2 "Properties")
    let listed := (← dependsOn resource.2).filterMap (·.text?)
    let targets := (found ++ listed).filter fun target => ids.contains target && target != id
    .ok (id, Text.dedupe targets)

/-- The template in a document, if the document is a JSON object. -/
def parse? (document : String) : Except Fault (Option (List (Value × Datum))) :=
  match Json.read document with
  | .ok (.table entries) => .ok (some entries)
  | .ok _ => .ok none
  | .error (.malformed ..) => .ok none
  | .error .tooDeep => .error .tooDeep
  | .error fault => .error (.badValue (fault.text document.toList))

end Infra.Template
