import Infra.Expr.Basic
import Infra.Store.Table
import Infra.Fault

/-!
# The store

Everything that declarations make and that has an identity: containers, entities, attribute
references, outputs, intrinsic values, constructors, and composites with their definitions. A
`Value` holds the number of an object, so that two places share an object exactly when they hold
the same number.

* `Entity`, `Reference`, `Output`, `Intrinsic`, … : the objects;
* `Store` : one table per kind;
* `Store.handle` : entities are numbered from one, in the order in which they were made;
* `Store.setProps`, `Store.nameReference`, … : the changes that are made to objects.
-/

namespace Infra

/-! ## Objects -/

/-- How an entity shows where it is used as a value: by its name or with its properties. -/
inductive Entity.Kind
  | resource | property
  deriving DecidableEq, Repr

/-- A list, tuple or set. -/
structure Sequence where
  shape : Shape
  items : List Value
  deriving DecidableEq, Repr

instance : Inhabited Sequence := ⟨⟨.list, []⟩⟩

/-- A reference to one attribute of the entity with a handle. It is unresolved until it is given
the name of that entity. -/
structure Reference where
  parent : Int
  backend : String
  attr : String
  name : Option String
  deriving DecidableEq, Repr, Inhabited

/-- An attribute offered to other backends under the name of an output. -/
structure Output where
  parent : Int
  backend : String
  attr : String
  name : String
  source : String
  deriving DecidableEq, Repr, Inhabited

/-- A value that the target platform computes. -/
inductive Intrinsic
  | pseudo (ref : String)
  | interpolation (parts : List String) (values : List Value)
  deriving DecidableEq, Repr, Inhabited

/-- The documents of one backend: a primary document and further files by name. -/
structure Rendering where
  primary : String
  files : List (String × String)
  deriving DecidableEq, Repr, Inhabited

/-- What a finished build holds for a backend. -/
inductive Rendered
  | text (primary : String)
  | full (documents : Rendering)
  deriving DecidableEq, Repr, Inhabited

/-- What makes an entity a child project. -/
structure Child where
  path : String
  /-- The mapping of its options. -/
  options : Nat
  outputs : List String
  /-- The results of its own build by backend, once it is built. -/
  built : Option (List (String × Rendered))
  deriving DecidableEq, Repr, Inhabited

/-- A declared entity. -/
structure Entity where
  kind : Entity.Kind
  /-- The name of the constructor that made it. -/
  label : String
  backend : String
  entityType : String
  /-- The mapping of its properties. -/
  props : Nat
  /-- Its own references by accessor. -/
  accessors : List (String × Nat)
  name : Option String
  child : Option Child
  /-- The constructor that it was made with, if it was made with one. -/
  madeBy : Option Nat
  deriving DecidableEq, Repr

instance : Inhabited Entity := ⟨⟨.resource, "", "", "", 0, [], none, none, none⟩⟩

/-- A constructor of entities of one type. -/
structure Constructor where
  kind : Entity.Kind
  label : String
  entityType : String
  backend : String
  /-- The attributes it declares, by accessor. -/
  accessors : List (String × String)
  deriving DecidableEq, Repr

instance : Inhabited Constructor := ⟨⟨.resource, "", "", "", []⟩⟩

/-- A composite definition: parameters, local values and members, with the values that surround
its text and the arguments supplied where a caller leaves them out. -/
structure Definition where
  name : String
  params : List (String × Option Expr)
  locals : List (String × Expr)
  members : List (String × Expr)
  scope : List (String × Value)
  defaults : List (String × Value)
  deriving Repr, Inhabited

/-- A member of a composite. -/
inductive Member
  | entity (id : Nat)
  | composite (id : Nat)
  deriving DecidableEq, Repr, Inhabited

/-- A composite: its members, and the properties they share until they are expanded. -/
structure Composite where
  definition : Nat
  members : List (String × Member)
  shared : Option (List (String × Value))
  applied : Bool
  deriving DecidableEq, Repr, Inhabited

/-! ## The store -/

/-- All objects that have been made. -/
structure Store where
  sequences : Table Sequence
  mappings : Table (List (Value × Value))
  entities : Table Entity
  references : Table Reference
  outputs : Table Output
  intrinsics : Table Intrinsic
  constructors : Table Constructor
  definitions : Table Definition
  composites : Table Composite
  /-- The definitions in the registry, in order of registration. -/
  registered : List Nat
  deriving Repr

namespace Store

/-- The keys of the standing pseudo-parameters and what they refer to. -/
def standingPseudos : List (String × String) :=
  [("account_id", "Template::AccountId"), ("region", "Template::Region"),
   ("stack_name", "Template::StackName"), ("partition", "Template::Partition")]

/-- The store before any declaration: only the standing pseudo-parameters exist. -/
def initial : Store where
  sequences := .empty
  mappings := .empty
  entities := .empty
  references := .empty
  outputs := .empty
  intrinsics := ⟨(standingPseudos.map fun entry => Intrinsic.pseudo entry.2).toArray⟩
  constructors := .empty
  definitions := .empty
  composites := .empty
  registered := []

instance : Inhabited Store := ⟨initial⟩

variable (s : Store)

def sequence (id : Nat) : Sequence := s.sequences.get id
def mapping (id : Nat) : List (Value × Value) := s.mappings.get id
def entity (id : Nat) : Entity := s.entities.get id
def reference (id : Nat) : Reference := s.references.get id
def output (id : Nat) : Output := s.outputs.get id
def intrinsic (id : Nat) : Intrinsic := s.intrinsics.get id
def constructor (id : Nat) : Constructor := s.constructors.get id
def definition (id : Nat) : Definition := s.definitions.get id
def composite (id : Nat) : Composite := s.composites.get id

/-- The handle by which references name an entity. -/
def handle (id : Nat) : Int := (id : Int) + 1

/-- The properties of an entity. -/
def props (id : Nat) : List (Value × Value) := s.mapping (s.entity id).props

/-- The objects that a value can be nested in. -/
def containerCount : Nat := s.sequences.size + s.mappings.size + s.entities.size

/-! ## New objects -/

def newSequence (shape : Shape) (items : List Value) : Value × Store :=
  (.sequence s.sequences.size, { s with sequences := s.sequences.push ⟨shape, items⟩ })

def newMapping (entries : List (Value × Value)) : Nat × Store :=
  (s.mappings.size, { s with mappings := s.mappings.push entries })

def newReference (r : Reference) : Nat × Store :=
  (s.references.size, { s with references := s.references.push r })

def newOutput (o : Output) : Value × Store :=
  (.output s.outputs.size, { s with outputs := s.outputs.push o })

def newIntrinsic (i : Intrinsic) : Value × Store :=
  (.intrinsic s.intrinsics.size, { s with intrinsics := s.intrinsics.push i })

def newConstructor (c : Constructor) : Value × Store :=
  (.constructor s.constructors.size, { s with constructors := s.constructors.push c })

def newComposite (c : Composite) : Value × Store :=
  (.composite s.composites.size, { s with composites := s.composites.push c })

/-- Adds a definition, and registers it where asked to. -/
def newDefinition (d : Definition) (register : Bool) : Value × Store :=
  let id := s.definitions.size
  (.definition id, { s with
    definitions := s.definitions.push d
    registered := if register then s.registered ++ [id] else s.registered })

/-- Adds one reference of the entity with a handle for each declared accessor. -/
def newAccessors (handle : Int) (backend : String) :
    Store → List (String × String) → List (String × Nat) × Store
  | s, [] => ([], s)
  | s, (accessor, attr) :: rest =>
    let (id, s) := s.newReference ⟨handle, backend, attr, none⟩
    let (others, s) := newAccessors handle backend s rest
    ((accessor, id) :: others, s)

/-- Adds an entity with its properties and accessors. It takes the next handle. -/
def newEntity (kind : Entity.Kind) (label backend entityType : String)
    (props : List (Value × Value)) (accessors : List (String × String)) (child : Option Child) :
    Nat × Store :=
  let id := s.entities.size
  let (bag, s) := s.newMapping props
  let (own, s) := newAccessors (handle id) backend s accessors
  (id, { s with
    entities := s.entities.push ⟨kind, label, backend, entityType, bag, own, none, child, none⟩ })

/-! ## Changes -/

def setMapping (id : Nat) (entries : List (Value × Value)) : Store :=
  { s with mappings := s.mappings.set id entries }

/-- Gives an entity a new mapping of properties. -/
def setProps (id : Nat) (entries : List (Value × Value)) : Store :=
  let (bag, s) := s.newMapping entries
  { s with entities := s.entities.modify id fun e => { e with props := bag } }

/-- Records the constructor that an entity was made with. -/
def markMadeBy (id constructor : Nat) : Store :=
  { s with entities := s.entities.modify id fun e => { e with madeBy := some constructor } }

/-- Names an entity. -/
def nameEntity (id : Nat) (name : String) : Store :=
  { s with entities := s.entities.modify id fun e => { e with name := some name } }

/-- Gives a reference the name of its entity. -/
def nameReference (id : Nat) (name : String) : Store :=
  { s with references := s.references.modify id fun r => { r with name := some name } }

/-- Tells an output the name of the entity it reads. -/
def sourceOutput (id : Nat) (name : String) : Store :=
  { s with outputs := s.outputs.modify id fun o => { o with source := name } }

/-- Stores the results of the build of a child project. -/
def setBuilt (id : Nat) (built : Option (List (String × Rendered))) : Store :=
  { s with entities := s.entities.modify id fun e =>
      { e with child := e.child.map fun c => { c with built := built } } }

/-- Records whether the shared properties of a composite have been applied. -/
def setApplied (id : Nat) (applied : Bool) : Store :=
  { s with composites := s.composites.modify id fun c => { c with applied := applied } }

/-- Sets the properties that the members of a composite share. -/
def setShared (id : Nat) (shared : List (String × Value)) : Store :=
  { s with composites := s.composites.modify id fun c =>
      { c with shared := some shared, applied := false } }

end Store
end Infra
