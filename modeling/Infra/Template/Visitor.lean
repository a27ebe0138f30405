import Infra.Render.Visitor
import Infra.Text.Words

/-!
# Template values

How the template backend renders values: keys in their rendered spelling, resources by `Ref`,
attributes of entities of the same template by `Fn::GetAtt`, and those of other entities as
references to an output of their backend, which is named after the entity and the attribute.

* `Template.renderedKey` : the rendered spelling of a key;
* `Template.visitor` : the choices of the backend, for the names of one template.
-/

namespace Infra.Template

/-- The name of the backend. -/
def backend : String := "template"

/-- The name of the output for an attribute that another backend reads. -/
def automaticOutput (entity attr : String) : String := entity ++ "_" ++ attr

/-- The fault of a key that has no rendered spelling. -/
def notSpelled (v : Value) : Fault :=
  .wrongType ("argument of type '" ++ v.typeName ++ "' is not iterable")

/-- The rendered spelling of a key. A key that counts as unset is kept; any other that is no text
has none. -/
def renderedKey (s : Store) (key : Value) : Except Fault Value :=
  match key with
  | .text text => .ok (.text (Text.pascalCase text))
  | .sequence id =>
    let q := s.sequence id
    if q.items.isEmpty then .ok key
    else if q.shape = .tuple ∨ q.items.any fun item => item == .text "_" || item == .text "-" then
      .error (.noField ("'" ++ q.shape.typeName ++ "' object has no attribute 'replace'"))
    else .error (.wrongType ("'" ++ q.shape.typeName ++ "' object is not subscriptable"))
  | _ => if key.isFalsyScalar then .ok key else .error (notSpelled key)

/-- How an output of another backend is referred to. -/
abbrev CrossReference := String → Datum

/-- The marker of an output. -/
def markOutput : CrossReference := fun name => .record [(outputMarker, .text name)]

/-- The properties that are set, under their rendered keys. -/
def renderProps (s : Store) (render : Value → Except Fault Datum)
    (entries : List (Value × Value)) : Except Fault (List (Value × Datum)) := do
  let given := entries.filter fun entry => entry.2 != .null
  let rendered ← renderEntries (renderedKey s) render given
  .ok (rendered.foldl (fun all entry => Entries.insert all entry.1 entry.2) [])

/-- The choices of the template backend: `names` are the names of the template's own entities, and
`convert` says whether keys are spelled anew. -/
def visitor (s : Store) (names : List String) (convert : Bool) (cross : CrossReference) :
    Visitor where
  reference name attr :=
    if names.contains name then .record [("Fn::GetAtt", .texts [name, attr])]
    else cross (automaticOutput name attr)
  resource name := .record [("Ref", .text name)]
  key v := if convert then renderedKey s v else .ok v
  inline _ entries render := do
    let props ← renderProps s render entries
    .ok (if props.isEmpty then .null else .table props)

end Infra.Template
