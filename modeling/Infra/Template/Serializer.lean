import Infra.Json.Writer
import Infra.Namespace
import Infra.Template.Check

/-!
# The template of a namespace

Renders the entities of the template backend to one JSON document: parameters, resources with
their properties, and outputs. A child project is a stack resource, which reads its template from
a file beside the document; the files of all children are returned with it.

* `Template.parameterForm`, `Template.stackForm`, `Template.resourceForm` : one entity;
* `Template.drafted`, `Template.assembled` : the sections of a namespace, and its document tree;
* `Template.childFiles` : the files of its child projects;
* `Template.serialize` : the document and the files.

A resource lists under `DependsOn` what it depends on without referring to it.
-/

namespace Infra.Template

def formatVersion : String := "tessera-template/1"
def parameterType : String := "Template::Parameter"

/-- The parameter that tells a stack where the templates of its children are. -/
def basePath : String := "TemplateBasePath"

/-- The file that holds the template of a child project. -/
def childFile (name : String) : String := name ++ ".template.json"

/-- What a serialization works with: the names of the template, the references to other backends,
and the graph of dependencies. -/
structure Plan where
  names : List String
  cross : CrossReference
  dependencies : Graph

/-- Whether an entity is a template parameter. -/
def isParameter (e : Entity) : Bool := e.entityType == parameterType

/-- A table of texts, in insertion order. -/
abbrev Section := List (Value × Datum)

def Section.put (s : Section) (name : String) (d : Datum) : Section := Entries.insert s (.text name) d

variable (s : Store) (plan : Plan)

/-- The form of a value in the template. -/
def form (convert : Bool) (v : Value) : Except Fault Datum :=
  s.render (visitor s plan.names convert plan.cross) v

/-- The form of a parameter: its properties under their own keys. -/
def parameterForm (id : Nat) : Except Fault Datum :=
  form s plan false (.mapping (s.entity id).props)

/-- The parameters that a child project is given. -/
def childParameters (c : Child) : Except Fault (List (Value × Value)) :=
  match s.valueAt? (s.mapping c.options) (.text "parameters") with
  | none => .ok []
  | some (.mapping bag) => .ok (s.mapping bag)
  | some (.sequence q) =>
    if (s.sequence q).items.isEmpty then .ok []
    else .error (.noField ("'" ++ (s.sequence q).shape.typeName ++ "' object has no attribute 'items'"))
  | some v =>
    if v.isFalsyScalar then .ok []
    else .error (.noField ("'" ++ v.typeName ++ "' object has no attribute 'items'"))

/-- The form of a child project: a stack with the address of its template and its parameters. -/
def stackForm (name : String) (e : Entity) (c : Child) : Except Fault Datum := do
  let given ← childParameters s c
  let rendered ← renderEntries .ok (form s plan true) given
  let base : Section := [(.text basePath, .record [("Ref", .text basePath)])]
  let parameters := rendered.foldl (fun all entry => Entries.insert all entry.1 entry.2) base
  .ok <| .record [
    ("Type", .text e.entityType),
    ("Properties", .record [
      ("TemplateURL", .record [("Fn::Sub",
        .text ("$\x7b" ++ basePath ++ "\x7d/" ++ childFile name))]),
      ("Parameters", .table parameters)])]

/-- What a resource depends on without referring to it in its properties. -/
def explicitDependencies (n : Namespace) (name : String) (props : Section) : List String :=
  let isOther (dep : String) : Bool :=
    match n.lookup dep with
    | some (.entity id) => !isParameter (s.entity id)
    | some _ => true
    | none => false
  let implicit := references (.table props)
  Text.sorted <| Text.dedupe <| (plan.dependencies.listed name).filter fun dep =>
    isOther dep && dep != name && !implicit.contains dep

/-- The form of a resource: its type, its properties if it has any, and what else it depends
on. -/
def resourceForm (n : Namespace) (name : String) (id : Nat) : Except Fault Datum := do
  let props ← renderProps s (form s plan true) (s.props id)
  let explicit := explicitDependencies s plan n name props
  .ok <| .record <|
    [("Type", .text (s.entity id).entityType)]
      ++ (if props.isEmpty then [] else [("Properties", .table props)])
      ++ (if explicit.isEmpty then [] else [("DependsOn", .texts explicit)])

/-- The sections of a template while its entities are added. -/
structure Draft where
  parameters : Section
  resources : Section

/-- The fault of a value in place of an entity. -/
def notEntity (v : Value) : Fault :=
  match v with
  | .composite id => .noMember (s.definition (s.composite id).definition).name "kind"
  | _ => .noField ("'" ++ v.typeName ++ "' object has no attribute 'kind'")

/-- Adds an entity to the section it belongs to; property entities stand in no section. -/
def addEntity (n : Namespace) (draft : Draft) (entry : String × Value) : Except Fault Draft :=
  let name := entry.1
  match entry.2 with
  | .entity id =>
    let e := s.entity id
    match e.kind, isParameter e, e.child with
    | .property, _, _ => .ok draft
    | .resource, true, _ => do
      .ok { draft with parameters := draft.parameters.put name (← parameterForm s plan id) }
    | .resource, false, some c => do
      .ok { draft with resources := draft.resources.put name (← stackForm s plan name e c) }
    | .resource, false, none => do
      .ok { draft with resources := draft.resources.put name (← resourceForm s plan n name id) }
  | v => .error (notEntity s v)

/-- The child projects of a namespace. -/
def children (n : Namespace) : List (String × Child) :=
  n.entities.filterMap fun entry => (s.entity entry.2).child.map fun c => (entry.1, c)

/-- The parameter for the place of the children's templates, where there are children. -/
def baseParameter (n : Namespace) : Section :=
  if (children s n).isEmpty then []
  else [(.text basePath, .record [("Type", .text "String"), ("Default", .text "."),
    ("Description", .text "Base path of nested stack templates")])]

/-- The form of an output of the template. -/
def outputForm (v : Value) : Except Fault (String × Datum) :=
  match v with
  | .output id =>
    let o := s.output id
    .ok (o.name, .record [("Value", .record [("Fn::GetAtt", .texts [o.source, o.attr])])])
  | .entity id =>
    let e := s.entity id
    .error (.noAccessor e.label e.entityType "output_name")
  | .composite id => .error (.noMember (s.definition (s.composite id).definition).name "output_name")
  | _ => .error (.noField ("'" ++ v.typeName ++ "' object has no attribute 'output_name'"))

/-- The document tree of a template with its parameters, resources and outputs. -/
def assembled (draft : Draft) (outputs : List (String × Datum)) : Datum :=
  let listed := outputs.foldl (fun (all : Section) output => all.put output.1 output.2) []
  .record <|
    [("FormatVersion", .text formatVersion)]
      ++ (if draft.parameters.isEmpty then [] else [("Parameters", .table draft.parameters)])
      ++ [("Resources", .table draft.resources)]
      ++ (if outputs.isEmpty then [] else [("Outputs", .table listed)])

/-- The sections of the template of a namespace. -/
def drafted (n : Namespace) : Except Fault Draft :=
  n.foldlM (addEntity s plan n) ⟨baseParameter s n, []⟩

/-- The files that a child project adds. -/
def filesOfChild (name : String) (c : Child) : Option (List (String × String)) :=
  match (c.built.getD []).lookup backend with
  | none => none
  | some (.text primary) => some [(childFile name, primary)]
  | some (.full documents) => some ((childFile name, documents.primary) :: documents.files)

/-- The logger of the serializer. -/
def logger : String := "tessera.backends.template.serializer"

/-- The files of all child projects; a child that has not been built is reported. -/
def childFiles (n : Namespace) : Logged (List (String × String)) :=
  (children s n).foldlM (fun files child =>
    match filesOfChild child.1 child.2 with
    | some added => pure (added.foldl (fun all file => Named.insert all file.1 file.2) files)
    | none => do
      Logged.tell ⟨.warning, logger, "child_template_missing", [("child", .text child.1)]⟩
      pure files) []

/-- The document of a namespace and the files of its child projects. -/
def serialize (n : Namespace) (outputs : List Value) : Logged (Except Fault Rendering) :=
  match drafted s plan n, outputs.mapM (outputForm s) with
  | .error fault, _ => pure (.error fault)
  | .ok _, .error fault => pure (.error fault)
  | .ok draft, .ok listed => do
    Logged.tell ⟨.debug, logger, "template_rendered",
      [("resources", .int draft.resources.length), ("parameters", .int draft.parameters.length)]⟩
    match Json.document (assembled draft listed) with
    | .error fault => pure (.error fault)
    | .ok primary => do
      let files ← childFiles s n
      pure (.ok ⟨primary, files⟩)

end Infra.Template
