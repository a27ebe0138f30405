import Infra.Store.Classify
import Infra.Store.Display
import Infra.Store.Key
import Infra.Text.Placeholder

/-!
# Evaluation of value expressions

Expressions are evaluated from left to right against a store, which grows by what they make. A
refused expression leaves behind what it made before it was refused.

* `Scope` : the variables in reach; those of a composite hide those of the program;
* `Eval` : a computation that changes the store and may be refused;
* `Eval.field`, `Eval.declared` : the fields and the declared attributes of an object;
* `Eval.accept`, `Eval.enter` : the arguments of a call of a definition, and the scope that its
  parameters make;
* `Expr.eval` : the value of an expression.

A composite may call itself without end, so evaluation goes to a fixed depth (`Expr.depthLimit`).
-/

namespace Infra

/-- The variables in reach of an expression. -/
structure Scope where
  locals : List (String × Value)
  globals : List (String × Value)
  deriving Repr

/-- The value of a variable. -/
def Scope.find? (scope : Scope) (name : String) : Option Value :=
  (scope.locals.lookup name).or (scope.globals.lookup name)

/-- Adds a local variable. -/
def Scope.bind (scope : Scope) (name : String) (v : Value) : Scope :=
  { scope with locals := (name, v) :: scope.locals }

/-- A computation that changes the store and may be refused. -/
abbrev Eval (α : Type) := EStateM Fault Store α

namespace Eval

/-- Makes an object of the store. -/
def make {α : Type} (f : Store → α × Store) : Eval α := modifyGet f

/-- Takes a result that may be refused. -/
def ofExcept {α : Type} : Except Fault α → Eval α
  | .ok a => pure a
  | .error fault => throw fault

/-- The fault of a value without fields of its own. -/
def noField (v : Value) (name : String) : Fault :=
  .noField ("'" ++ v.typeName ++ "' object has no attribute '" ++ name ++ "'")

/-! ## Iteration -/

/-- The items that a value yields one after the other. -/
def items (v : Value) : Eval (List Value) := do
  let s ← get
  match v with
  | .sequence id => pure (s.sequence id).items
  | .mapping id => pure ((s.mapping id).map (·.1))
  | .text text => pure (text.toList.map fun c => .text (String.singleton c))
  | .bytes bs => pure (bs.map fun b => .int b.toNat)
  | _ => throw (.wrongType ("'" ++ v.typeName ++ "' object is not iterable"))

/-- The texts of the items that a value yields. -/
def names (v : Value) : Eval (List String) := do
  let vs ← items v
  let s ← get
  pure (vs.map s.shown)

/-- The accessors that a declaration of attributes gives, each with its attribute. -/
def accessors (declared : Option Value) : Eval (List (String × String)) := do
  match declared with
  | none | some .null => pure []
  | some (.mapping id) =>
    let s ← get
    pure (Named.ofList ((s.mapping id).map fun entry => (s.shown entry.1, s.shown entry.2)))
  | some v =>
    let listed ← items v
    let s ← get
    match listed.find? (!s.isKey ·) with
    | some item => throw (s.notKey item)
    | none => pure (Named.ofList (listed.map fun item => (s.shown item, s.shown item)))

/-! ## Entities -/

/-- Adds an entity. -/
def entity (kind : Entity.Kind) (label backend entityType : String)
    (props : List (Value × Value)) (own : List (String × String)) (child : Option Child) :
    Eval Value := do
  let id ← make (·.newEntity kind label backend entityType props own child)
  pure (.entity id)

/-- Adds an entity whose accessors are still to be read; if they are refused, the handle of the
entity is used up all the same. -/
def entityDeclaring (kind : Entity.Kind) (label backend entityType : String)
    (props : List (Value × Value)) (declared : Option Value) : Eval Value := do
  match (accessors declared).run (← get) with
  | .ok own _ => entity kind label backend entityType props own none
  | .error fault _ =>
    let _ ← entity kind label backend entityType props [] none
    throw fault

/-- Entries under texts. -/
def textKeys (entries : List (String × Value)) : List (Value × Value) :=
  Named.ofList entries |>.map fun entry => (.text entry.1, entry.2)

/-- What stands before the first double colon of reversed characters. -/
def beforeDoubleColon : List Char → List Char
  | [] => []
  | ':' :: ':' :: _ => []
  | c :: rest => c :: beforeDoubleColon rest

/-- The name that a constructor takes from its type: the part after the last double colon, with
underscores for dots. -/
def derivedName (entityType : String) : String :=
  let last := (beforeDoubleColon entityType.toList.reverse).reverse
  String.ofList (last.map fun c => if c == '.' then '_' else c)

/-- Adds a constructor. -/
def newConstructor (kind : Entity.Kind) (entityType backend : String)
    (own : List (String × String)) (name : Option String) : Eval Value :=
  let given := name.getD ""
  let label := if given.isEmpty then derivedName entityType else given
  make (·.newConstructor ⟨kind, label, entityType, backend, own⟩)

/-- Adds an entity of a constructor. The keywords stand after the properties and replace those of
the same name. -/
def construct (v : Value) (props : Option Value) (keywords : List (String × Value)) :
    Eval Value := do
  let s ← get
  match v with
  | .constructor id =>
    if (keywords.lookup "self").isSome then
      throw (.wrongType "got multiple values for argument 'self'")
    if props.isSome && (keywords.lookup "props").isSome then
      throw (.wrongType "got multiple values for argument 'props'")
    let given ← match props.or (keywords.lookup "props") with
      | some (.mapping bag) => pure (s.mapping bag)
      | some (.sequence q) =>
        if (s.sequence q).items.isEmpty then pure []
        else throw (.wrongType ("'" ++ (s.sequence q).shape.typeName ++ "' object is not a mapping"))
      | some other =>
        if other.isFalsyScalar then pure []
        else throw (.wrongType ("'" ++ other.typeName ++ "' object is not a mapping"))
      | none => pure []
    let added := keywords.filter fun keyword => keyword.1 != "props"
    let entries := added.foldl
      (fun entries keyword => s.insertEntry entries (.text keyword.1) keyword.2) given
    let c := s.constructor id
    let made ← make (·.newEntity c.kind c.label c.backend c.entityType entries c.accessors none)
    modify (·.markMadeBy made id)
    pure (.entity made)
  | _ => throw (.wrongType ("'" ++ v.typeName ++ "' object is not callable"))

/-! ## Fields -/

/-- The fields that a constructor gives to the entities made with it. -/
def constructorField? (c : Constructor) (name : String) : Eval (Option Value) := do
  match name with
  | "TYPE" => pure (some (.text c.entityType))
  | "BACKEND" => pure (some (.text c.backend))
  | "ATTRIBUTES" =>
    let bag ← make (·.newMapping (c.accessors.map fun own => (.text own.1, .text own.2)))
    pure (some (.mapping bag))
  | _ => pure none

/-- The fields that an entity has beside its accessors. -/
def entityField? (id : Nat) (name : String) : Eval (Option Value) := do
  let s ← get
  let e := s.entity id
  match name, e.child with
  | "backend", _ => pure (some (.text e.backend))
  | "entity_type", _ => pure (some (.text e.entityType))
  | "props", _ => pure (some (.mapping e.props))
  | "handle", _ => pure (some (.int (Store.handle id)))
  | "logical_name", _ => pure (some (match e.name with
    | some text => .text text
    | none => .null))
  | "kind", _ => pure (some (.text e.kind.label))
  | "attr", _ => pure (some .function)
  | "attributes", _ =>
    let bag ← make (·.newMapping (e.accessors.map fun own => (.text own.1, .reference own.2)))
    pure (some (.mapping bag))
  | "project_path", some child => pure (some (.path child.path))
  | "options", some child => pure (some (.mapping child.options))
  | "output_names", some child =>
    some <$> make (·.newSequence .list (child.outputs.map .text))
  | "build_result", some _ => pure (some .null)
  | _, _ =>
    match e.madeBy with
    | some constructor => constructorField? (s.constructor constructor) name
    | none => pure none

/-- A field of an object: of an entity its own fields and then its accessors, of a composite its
own fields and then its members. -/
def field (v : Value) (name : String) : Eval Value := do
  let s ← get
  match v with
  | .entity id =>
    match ← entityField? id name with
    | some found => pure found
    | none =>
      let e := s.entity id
      match e.accessors.lookup name with
      | some ref => pure (.reference ref)
      | none => throw (.noAccessor e.label e.entityType name)
  | .composite id =>
    let c := s.composite id
    let member : Member → Value
      | .entity e => .entity e
      | .composite inner => .composite inner
    match name with
    | "members" =>
      .mapping <$> make (·.newMapping (c.members.map fun m => (.text m.1, member m.2)))
    | "definition" => pure (.definition c.definition)
    | "shared_props" =>
      match c.shared with
      | some shared => .mapping <$> make (·.newMapping (textKeys shared))
      | none => pure .null
    | _ =>
      match c.members.lookup name with
      | some m => pure (member m)
      | none => throw (.noMember (s.definition c.definition).name name)
  | _ => throw (noField v name)

/-- The reference that an entity declares under an accessor, or else under an attribute. -/
def declared (v : Value) (name : String) : Eval Value := do
  let s ← get
  match v with
  | .entity id =>
    let e := s.entity id
    let byAttr := e.accessors.find? fun own => (s.reference own.2).attr == name
    match (e.accessors.lookup name).or (byAttr.map (·.2)) with
    | some ref => pure (.reference ref)
    | none => throw (.undeclared e.entityType name)
  | _ =>
    let found ← field v "attr"
    throw (.wrongType ("'" ++ found.typeName ++ "' object is not callable"))

/-- A property of an entity. -/
def prop (v : Value) (key : String) : Eval Value := do
  match ← field v "props" with
  | .mapping bag =>
    let s ← get
    match s.valueAt? (s.mapping bag) (.text key) with
    | some found => pure found
    | none => throw (.missingKey key)
  | other => throw (.wrongType ("'" ++ other.typeName ++ "' object is not subscriptable"))

/-! ## Outputs -/

/-- The reference behind a value that an output is made of; `asked` is the first field that is
read of it. -/
def referenceOf (v : Value) (asked : String) : Eval Reference := do
  match v with
  | .reference id => pure ((← get).reference id)
  | _ =>
    let found ← field v asked
    throw (noField found asked)

/-! ## Composites -/

/-- Checks that a keyword names a parameter that has no value by position. -/
def checkKeyword (params : List (String × Option Expr)) (positional : List (String × Value))
    (keyword : String × Value) : Except Fault PUnit :=
  if (positional.lookup keyword.1).isSome then
    .error (.wrongType ("multiple values for argument '" ++ keyword.1 ++ "'"))
  else if (params.lookup keyword.1).isNone then
    .error (.wrongType ("got an unexpected keyword argument '" ++ keyword.1 ++ "'"))
  else .ok ()

/-- Binds the arguments of a call to the parameters of a definition: by position, then by name. A
parameter that is left out has no value here. -/
def bindArguments (params : List (String × Option Expr)) (arguments : List Value)
    (keywords : List (String × Value)) : Except Fault (List (String × Value)) := do
  if params.length < arguments.length then
    throw (.wrongType "too many positional arguments")
  let positional := (params.map (·.1)).zip arguments
  keywords.forM (checkKeyword params positional)
  let bound := positional ++ keywords
  match params.find? fun param => param.2.isNone && (bound.lookup param.1).isNone with
  | some param => throw (.wrongType ("missing a required argument: '" ++ param.1 ++ "'"))
  | none => pure bound

/-- The arguments of a call of a definition. Keywords stand in for the defaults that the definition
was given; one of them is taken already. -/
def accept (d : Definition) (arguments : List Value) (keywords : List (String × Value)) :
    Except Fault (List (String × Value)) := do
  if (keywords.lookup "self").isSome then
    throw (.wrongType "got multiple values for argument 'self'")
  let all := keywords.foldl (fun all entry => Named.insert all entry.1 entry.2) d.defaults
  bindArguments d.params arguments all

/-- Gives a parameter that a call leaves out the value of its own default. -/
def complete (evaluate : Scope → Expr → Eval Value) (bound : List (String × Value))
    (inner : Scope) (param : String × Option Expr) : Eval Scope :=
  match param.2, bound.lookup param.1 with
  | some default, none => do pure (inner.bind param.1 (← evaluate inner default))
  | _, _ => pure inner

/-- The scope of the members of a composite: what surrounds the text of its definition, and its
parameters. -/
def enter (evaluate : Scope → Expr → Eval Value) (scope : Scope) (d : Definition)
    (bound : List (String × Value)) : Eval Scope :=
  d.params.foldlM (complete evaluate bound) { scope with locals := bound.reverse ++ d.scope }

/-- The members of a composite, where all of them are entities or composites. -/
def membersOf (name : String) (members : List (String × Value)) :
    Except Fault (List (String × Member)) :=
  (Named.ofList members).mapM fun member =>
    match member.2 with
    | .entity id => .ok (member.1, .entity id)
    | .composite id => .ok (member.1, .composite id)
    | _ => .error (.failed (.invalidComposite name member.1 none))

/-- A definition whose callers may leave out more arguments. -/
def withDefaults (v : Value) (defaults : List (String × Value)) : Eval Value := do
  let s ← get
  if (defaults.lookup "definition").isSome then
    throw (.wrongType "got multiple values for argument 'definition'")
  match v with
  | .definition id =>
    let d := s.definition id
    let merged := defaults.foldl (fun all entry => Named.insert all entry.1 entry.2) d.defaults
    make (·.newDefinition { d with defaults := merged } false)
  | _ =>
    let found ← field v "name"
    throw (.wrongType ("'" ++ found.typeName ++ "' object is not a definition"))

/-- A composite with properties that its members share. An object that is no composite takes them
without effect, unless it has no room for them. -/
def propagate (v : Value) (shared : List (String × Value)) : Eval Value := do
  if (shared.lookup "instance").isSome then
    throw (.wrongType "got multiple values for argument 'instance'")
  match v with
  | .composite id =>
    modify (·.setShared id (Named.ofList shared))
    pure v
  | .entity _ | .definition _ | .output _ | .intrinsic _ | .constructor _ | .function | .module =>
    pure v
  | _ => throw (noField v "shared_props")

/-! ## Interpolations -/

/-- The parts and values of an interpolated text: texts that follow each other are one part, and
one part stands between two values. -/
def splitPieces : List Value → List String × List Value
  | [] => ([""], [])
  | piece :: rest =>
    let (parts, values) := splitPieces rest
    match piece with
    | .text text =>
      match parts with
      | [] => ([text], values)
      | part :: others => ((text ++ part) :: others, values)
    | _ => ("" :: parts, piece :: values)

end Eval

/-! ## Expressions -/

namespace Expr

/-- The value of an expression, to some depth. -/
def evalTo (scope : Scope) : Nat → Expr → Eval Value
  | 0, _ => throw .tooDeep
  | depth + 1, e => do
    let pairs (entries : List (String × Expr)) : Eval (List (String × Value)) :=
      entries.mapM fun entry => do pure (entry.1, ← evalTo scope depth entry.2)
    let optional (e? : Option Expr) : Eval (Option Value) :=
      match e? with
      | some e => some <$> evalTo scope depth e
      | none => pure none
    match e with
    | .literal v => pure v
    | .sequence shape items =>
      let vs ← items.mapM (evalTo scope depth)
      match shape with
      | .list | .tuple => Eval.make (·.newSequence shape vs)
      | .set | .frozenSet =>
        let s ← get
        match vs.find? (!s.isKey ·) with
        | some v => throw (s.notKey v)
        | none => Eval.make (·.newSequence shape (s.distinct vs))
    | .mapping entries =>
      let add (kept : List (Value × Value)) (entry : Expr × Expr) : Eval (List (Value × Value)) := do
        let key ← evalTo scope depth entry.1
        let v ← evalTo scope depth entry.2
        let s ← get
        if s.isKey key then pure (s.insertEntry kept key v) else throw (s.notKey key)
      .mapping <$> (do Eval.make (·.newMapping (← entries.foldlM add [])))
    | .variable name =>
      match scope.find? name with
      | some v => pure v
      | none => throw (.missingKey name)
    | .resource backend entityType attributes props =>
      let declared ← optional attributes
      let given ← pairs props
      Eval.entityDeclaring .resource "Resource" backend entityType (Eval.textKeys given) declared
    | .property backend entityType attributes props =>
      let declared ← optional attributes
      let given ← pairs props
      Eval.entityDeclaring .property "Property" backend entityType (Eval.textKeys given) declared
    | .resourceType entityType backend attributes name =>
      let declared ← optional attributes
      Eval.newConstructor .resource entityType backend (← Eval.accessors declared) name
    | .propertyType entityType backend name =>
      Eval.newConstructor .property entityType backend [] name
    | .construct made props keywords =>
      let v ← evalTo scope depth made
      let given ← pairs props
      let named ← pairs keywords
      if given.isEmpty then Eval.construct v none named
      else
        let bag ← Eval.make (·.newMapping (Eval.textKeys given))
        Eval.construct v (some (.mapping bag)) named
    | .parameter type default description =>
      let given ← optional default
      let entries := [("Type", Value.text (type.getD "String"))]
        ++ (match given with
          | none | some .null => []
          | some v => [("Default", v)])
        ++ (description.map fun text => ("Description", Value.text text)).toList
      Eval.entity .resource "Parameter" "template" "Template::Parameter" (Eval.textKeys entries) [] none
    | .stack path parameters outputs =>
      let given ← pairs parameters
      let listed ← optional outputs
      let outputNames ← (listed.map Eval.names).getD (pure [])
      let bag ← Eval.make (·.newMapping (Eval.textKeys given))
      let options ← Eval.make (·.newMapping [(.text "parameters", .mapping bag)])
      let own := Named.ofList (outputNames.map fun name => (name, "Outputs." ++ name))
      Eval.entity .resource "ChildProject" "template" "Template::Stack" [] own
        (some ⟨(Path.ofString path).toString, options, outputNames, none⟩)
    | .child backend entityType path outputs options props form =>
      let listed ← optional outputs
      let chosen ← pairs options
      let given ← pairs props
      let outputNames ← (listed.map Eval.names).getD (pure [])
      let own ← outputNames.mapM fun name => do
        pure (name, ← Eval.ofExcept (Text.Placeholder.fill (form.getD "\x7b\x7d") [name]))
      let bag ← Eval.make (·.newMapping (Eval.textKeys chosen))
      Eval.entity .resource "ChildProject" backend entityType (Eval.textKeys given) (Named.ofList own)
        (some ⟨(Path.ofString path).toString, bag, outputNames, none⟩)
    | .field object name => Eval.field (← evalTo scope depth object) name
    | .declared object name => Eval.declared (← evalTo scope depth object) name
    | .prop object key => Eval.prop (← evalTo scope depth object) key
    | .reference handle backend attr =>
      Value.reference <$> Eval.make (·.newReference ⟨handle, backend, attr, none⟩)
    | .output source name =>
      let r ← Eval.referenceOf (← evalTo scope depth source) "parent_handle"
      Eval.make (·.newOutput ⟨r.parent, r.backend, r.attr, name, ""⟩)
    | .automaticOutput source entity =>
      let r ← Eval.referenceOf (← evalTo scope depth source) "attribute"
      Eval.make (·.newOutput ⟨r.parent, r.backend, r.attr, entity ++ "_" ++ r.attr, entity⟩)
    | .standingPseudo key =>
      match Store.standingPseudos.findIdx? (·.1 == key) with
      | some id => pure (.intrinsic id)
      | none => throw (.missingKey key)
    | .pseudo ref => Eval.make (·.newIntrinsic (.pseudo ref))
    | .interpolation pieces =>
      let vs ← pieces.mapM (evalTo scope depth)
      let (parts, values) := Eval.splitPieces vs
      Eval.make (·.newIntrinsic (.interpolation parts values))
    | .rawInterpolation parts values =>
      let vs ← values.mapM (evalTo scope depth)
      Eval.make (·.newIntrinsic (.interpolation parts vs))
    | .define name factory registered params locals members =>
      let given := name.getD ""
      let label := if given.isEmpty then factory else given
      Eval.make (·.newDefinition ⟨label, params, locals, members, scope.locals, []⟩ registered)
    | .call called arguments keywords =>
      let v ← evalTo scope depth called
      let positional ← arguments.mapM (evalTo scope depth)
      let named ← pairs keywords
      match v with
      | .definition id =>
        let d := (← get).definition id
        let bound ← Eval.ofExcept (Eval.accept d positional named)
        let extend (inner : Scope) (entry : String × Expr) : Eval Scope := do
          pure (inner.bind entry.1 (← evalTo inner depth entry.2))
        let inner ← d.locals.foldlM extend
          (← Eval.enter (fun inner e => evalTo inner depth e) scope d bound)
        let made ← d.members.mapM fun entry => do
          pure (entry.1, ← evalTo inner depth entry.2)
        let members ← Eval.ofExcept (Eval.membersOf d.name made)
        Eval.make (·.newComposite ⟨id, members, none, false⟩)
      | .constructor _ =>
        if 1 < positional.length then
          throw (.wrongType "too many positional arguments")
        Eval.construct v positional.head? named
      | _ => throw (.wrongType ("'" ++ v.typeName ++ "' object is not callable"))
    | .withDefaults definition keywords =>
      let v ← evalTo scope depth definition
      Eval.withDefaults v (← pairs keywords)
    | .propagate composite keywords =>
      let v ← evalTo scope depth composite
      Eval.propagate v (← pairs keywords)
    | .concat pieces =>
      let vs ← pieces.mapM (evalTo scope depth)
      let s ← get
      pure (.text (String.join (vs.map s.shown)))
    | .shown v =>
      let v ← evalTo scope depth v
      pure (.text ((← get).shown v))

/-- The depth to which expressions are evaluated. -/
def depthLimit : Nat := 1000

/-- The value of an expression. -/
def eval (scope : Scope) (e : Expr) : Eval Value := evalTo scope depthLimit e

end Expr
end Infra
