import Infra.Raised
import Infra.Value

/-!
# Failures

The errors that a build reports: each has a kind with the data that kind carries, a message, a
category, whether it ends the build, a context and possibly the error that caused it.

* `Category`, `Context`, `Failure` : the parts of a failure; `Failure.Kind` : its kinds;
* `Failure.make`, `Failure.load`, `Failure.dangling`, … : the failures of each kind;
* `Context.assign`, `Failure.withContext` : later additions to the context;
* `Failure.report`, `Failure.report?` : the entries under which a failure is logged and shown.

The context object answers to some names of its own (`Context.ownNames`). An addition under such a
name replaces what the object answers there, so it does not show in a report. Under three of them
some values are refused (`Context.refusal?`), and three of them decide how the context is listed
(`Context.Listing`). A value under `to_dict` takes the place of the method that does it: if it cannot
be called there is no report any more. A class under `__class__` takes the method away. A value that
can be called, under `to_dict`, and a dictionary under `__dict__`, which takes the place of the
fields, stand in: what is listed then is their affair and is not told here.
-/

namespace Infra

/-- The phase of a build that a failure belongs to. -/
inductive Category
  | load | resolution | serialization | build | config | validation | inside | unknown
  deriving DecidableEq, Repr

namespace Category

/-- The written form of a category. -/
def label : Category → String
  | load => "LOAD"
  | resolution => "RESOLUTION"
  | serialization => "SERIALIZATION"
  | build => "BUILD"
  | config => "CONFIG"
  | validation => "VALIDATION"
  | inside => "INTERNAL"
  | unknown => "UNKNOWN"

def all : List Category :=
  [load, resolution, serialization, build, config, validation, inside, unknown]

/-- The category with a given written form. -/
def ofLabel? (label : String) : Option Category := all.find? (·.label == label)

/-- The category of an error of foreign code. -/
def ofRaised (r : Raised) : Category :=
  if Raised.loadLabels.contains r.label then load
  else if Raised.valueLabels.contains r.label then validation
  else unknown

end Category

/-! ## Context -/

/-- What lists a context. -/
inductive Context.Listing
  /-- The context object itself: its fields and free entries. -/
  | own
  /-- A value that cannot be called, in place of the method. -/
  | masked
  /-- An object of another class, which has no such method. -/
  | recast
  /-- A value that was given. -/
  | foreign
  deriving DecidableEq, Repr

/-- Where a failure happened: four fields, unset when null, and free entries. -/
structure Context where
  unit : Datum
  entity : Datum
  accessor : Datum
  backend : Datum
  free : List (String × Datum)
  listing : Context.Listing
  deriving BEq, Repr

namespace Context

def empty : Context := ⟨.null, .null, .null, .null, [], .own⟩

instance : Inhabited Context := ⟨empty⟩

/-- The names that the context object answers to beside its fields. -/
def ownNames : List String :=
  ["__annotations__", "__class__", "__dataclass_fields__", "__dataclass_params__", "__delattr__",
   "__dict__", "__dir__", "__doc__", "__eq__", "__format__", "__ge__", "__getattribute__",
   "__getstate__", "__gt__", "__hash__", "__init__", "__init_subclass__", "__le__", "__lt__",
   "__match_args__", "__module__", "__ne__", "__new__", "__reduce__", "__reduce_ex__", "__repr__",
   "__setattr__", "__sizeof__", "__str__", "__subclasshook__", "__weakref__", "to_dict"]

/-- The label of the error that a value is refused with: the list of weak references cannot be
written, a class takes no other value and the fields no other than a dictionary. -/
def refusal? (name : String) (value : Datum) : Option String :=
  match name, value with
  | "__weakref__", _ => some "AttributeError"
  | "__class__", .leaf (.constructor _) => none
  | "__class__", _ => some "TypeError"
  | "__dict__", .leaf (.mapping _) => none
  | "__dict__", .table _ => none
  | "__dict__", _ => some "TypeError"
  | _, _ => none

/-- Whether a value can be called. -/
def isCallable : Datum → Bool
  | .leaf .function | .leaf (.constructor _) | .leaf (.definition _) => true
  | _ => false

/-- Whether a value stands in for the method that lists the context, or for the fields. -/
def standsIn (name : String) (value : Datum) : Bool :=
  match name with
  | "to_dict" => isCallable value
  | "__dict__" => true
  | _ => false

/-- What lists the context after a value is set under an own name. An object of another class does
not answer to `to_dict` any more, unless a value stands there already. -/
def Listing.after (listing : Listing) (name : String) (value : Datum) : Listing :=
  match name with
  | "to_dict" =>
    match listing with
    | .own | .masked => if isCallable value then .foreign else .masked
    | .recast | .foreign => listing
  | "__class__" => if listing = .own then .recast else listing
  | "__dict__" => .foreign
  | _ => listing

/-- Sets a field or a free entry. -/
def assign (c : Context) (name : String) (value : Datum) : Context :=
  if name = "unit" then { c with unit := value }
  else if name = "entity" then { c with entity := value }
  else if name = "attribute" then { c with accessor := value }
  else if name = "backend" then { c with backend := value }
  else if ownNames.contains name then { c with listing := c.listing.after name value }
  else { c with free := Named.insert c.free name value }

/-- The four fields in order. -/
def fields (c : Context) : List (String × Datum) :=
  [("unit", c.unit), ("entity", c.entity), ("attribute", c.accessor), ("backend", c.backend)]

/-- The fields that are set and then the free entries; a free entry under the name of a field that
is set takes its place. -/
def entries (c : Context) : List (String × Datum) :=
  c.free.foldl (fun listed entry => Named.insert listed entry.1 entry.2)
    (c.fields.filter fun field => !field.2.isNull)

end Context

/-! ## Failures -/

/-- What failed, with the data that tells it. The `stage` of the first three replaces the coarse
label of their kind. -/
inductive Failure.Kind
  | general
  | discovery (file : String) (stage : Option String)
  | load (file : String) (stage : Option String)
  | resolution (file : String) (stage : Option String)
  | duplicate (name file : String)
  | dangling (path : String)
  | serialization
  | build (entity : String)
  | cycle (members : List String)
  | config
  | invalidConfig (key : String) (value : Datum)
  | invalidComposite (composite member : String)
  | unknownBackend (name : String) (available : List String)
  deriving BEq, Repr

namespace Failure.Kind

/-- The name of the kind in reports. -/
def label : Failure.Kind → String
  | general => "TesseraError"
  | discovery .. => "DiscoveryError"
  | load .. => "LoadError"
  | resolution .. => "ResolutionError"
  | duplicate .. => "DuplicateEntityError"
  | dangling .. => "DanglingReferenceError"
  | serialization => "SerializationError"
  | build .. => "BuildError"
  | cycle .. => "CycleDetectedError"
  | config => "ConfigError"
  | invalidConfig .. => "InvalidConfigError"
  | invalidComposite .. => "InvalidCompositeError"
  | unknownBackend .. => "BackendNotFoundError"

/-- The category of the kind, unless a failure is given another. -/
def category : Failure.Kind → Category
  | general => .inside
  | discovery .. | load .. => .load
  | resolution .. | duplicate .. | dangling .. => .resolution
  | serialization => .serialization
  | build .. | cycle .. => .build
  | config | invalidConfig .. | unknownBackend .. => .config
  | invalidComposite .. => .validation

/-- Whether a failure of the kind ends the build, unless it says otherwise. -/
def isFatal : Failure.Kind → Bool
  | load .. => false
  | _ => true

/-- Whether the failure is one of names or references. -/
def isResolution : Failure.Kind → Bool
  | resolution .. | duplicate .. | dangling .. => true
  | _ => false

/-- The unit that a failure of discovery is about; it is empty for a reference. -/
def file? : Failure.Kind → Option String
  | discovery file _ | load file _ | resolution file _ | duplicate _ file => some file
  | dangling _ => some ""
  | _ => none

/-- The coarse label under which discovery groups a failure. -/
def stage? : Failure.Kind → Option String
  | discovery _ stage | load _ stage => some (stage.getD "load")
  | resolution _ stage => some (stage.getD "resolution")
  | duplicate .. | dangling .. => some "resolution"
  | _ => none

/-- The data of the kind by name, in alphabetical order. -/
def data : Failure.Kind → List (String × Datum)
  | general | serialization | config => []
  | discovery file stage | load file stage | resolution file stage =>
    (stage.map fun label => ("error_type", Datum.text label)).toList ++ [("file", .text file)]
  | duplicate name file => [("file", .text file), ("name", .text name)]
  | dangling path => [("file", .text ""), ("path", .text path)]
  | build entity => [("entity_name", .text entity)]
  | cycle members =>
    [("cycle", .texts members), ("entity_name", .text (members.head?.getD ""))]
  | invalidConfig key value => [("key", .text key), ("value", value)]
  | invalidComposite composite member =>
    [("composite", .text composite), ("member", .text member)]
  | unknownBackend name available => [("available", .texts available), ("name", .text name)]

/-- What a report lists for the kind after the common entries. -/
def reported (k : Failure.Kind) : List (String × Datum) :=
  match k with
  | build entity => [("entity_name", .text entity)]
  | cycle members =>
    [("entity_name", .text (members.head?.getD "")), ("cycle", .texts members)]
  | _ =>
    match k.file?, k.stage? with
    | some file, some stage => [("file", .text file), ("type", .text stage)]
    | _, _ => []

/-- What the kind itself adds to the context of a failure. -/
def enrich (k : Failure.Kind) (c : Context) : Context :=
  match k with
  | discovery file _ | load file _ | resolution file _ =>
    if file.isEmpty then c else { c with unit := .text file }
  | duplicate name file =>
    { (if file.isEmpty then c else { c with unit := .text file }) with entity := .text name }
  | dangling path =>
    let name := path.toList.takeWhile (· != '.')
    let rest := (path.toList.drop name.length).drop 1
    { c with
      entity := .text (String.ofList name)
      accessor := if rest.isEmpty then .null else .text (String.ofList rest) }
  | build entity => if entity.isEmpty then c else { c with entity := .text entity }
  | cycle members =>
    match members.head? with
    | some entity => if entity.isEmpty then c else { c with entity := .text entity }
    | none => c
  | unknownBackend name _ => { c with backend := .text name }
  | _ => c

end Failure.Kind

/-- A failure that a build reports. -/
structure Failure where
  kind : Failure.Kind
  message : String
  category : Category
  fatal : Bool
  context : Context
  cause : Option Raised
  deriving BEq, Repr

/-- What a failure may be given beside its kind and message. -/
structure Failure.Options where
  category : Option Category
  fatal : Option Bool
  context : Context
  cause : Option Raised
  deriving Repr

namespace Failure

/-- No options: the kind decides. -/
def Options.none : Options := ⟨.none, .none, .empty, .none⟩

/-- A failure of some kind with a message. -/
def make (kind : Kind) (message : String) (options : Options) : Failure where
  kind := kind
  message := message
  category := options.category.getD kind.category
  fatal := options.fatal.getD kind.isFatal
  context := kind.enrich options.context
  cause := options.cause

/-- A message, or the one that stands in where none or an empty one is given. -/
def wording (message : Option String) (standard : String) : String :=
  match message with
  | some text => if text.isEmpty then standard else text
  | none => standard

/-- A source unit could not be loaded. -/
def load (file message : String) (cause : Option Raised) : Failure :=
  make (.load file .none) message { Options.none with cause := cause }

/-- Two different objects are exported under one name. -/
def duplicate (name file : String) (message : Option String) : Failure :=
  make (.duplicate name file)
    (wording message ("Duplicate entity name \"" ++ name ++ "\" found in " ++ file)) .none

/-- A reference leads to an entity outside the namespace. -/
def dangling (path : String) (message : Option String) : Failure :=
  make (.dangling path)
    (wording message ("Cannot resolve attribute reference at " ++ path ++
      ": parent entity is not in the namespace")) .none

/-- A value has no output form. -/
def serialization (message : String) : Failure := make .serialization message .none

/-- The members of a cycle with the first repeated at the end, unless it is already. -/
def closedPath (members : List String) : List String :=
  match members with
  | [] => []
  | first :: rest =>
    if rest.isEmpty || rest.getLast? != some first then members ++ [first] else members

/-- The dependency graph has a cycle. -/
def cycle (members : List String) : Failure :=
  make (.cycle members)
    ("Circular dependency detected: " ++ String.intercalate " -> " (closedPath members)) .none

/-- A configuration value is invalid. -/
def invalidConfig (key : String) (value : Datum) (message : String) : Failure :=
  make (.invalidConfig key value) message .none

/-- A composite has a member that is no entity. -/
def invalidComposite (composite member : String) (message : Option String) : Failure :=
  make (.invalidComposite composite member)
    (wording message ("Composite \"" ++ composite ++ "\" member \"" ++ member ++
      "\" is not an entity or composite")) .none

/-- No serializer is registered under the name. -/
def unknownBackend (name : String) (available : List String) : Failure :=
  let hint := if available.isEmpty then "" else
    " (available: " ++ String.intercalate ", " available ++ ")"
  make (.unknownBackend name available) ("Backend not found: " ++ name ++ hint) .none

/-- The label of the error that additions to the context are refused with, if they are. The name
`self` is taken by the failure. -/
def refusal? (additions : List (String × Datum)) : Option String :=
  if additions.any (·.1 == "self") then some "TypeError"
  else additions.findSome? fun entry => Context.refusal? entry.1 entry.2

/-- The additions that are made: all, or those before the first one that is refused, and none where
the call is refused as a whole. -/
def accepted (additions : List (String × Datum)) : List (String × Datum) :=
  if additions.any (·.1 == "self") then []
  else additions.takeWhile fun entry => (Context.refusal? entry.1 entry.2).isNone

/-- Adds entries to the context. -/
def withContext (f : Failure) (additions : List (String × Datum)) : Failure :=
  { f with
    context := (accepted additions).foldl (fun c entry => c.assign entry.1 entry.2) f.context }

/-- What comes of a report. -/
inductive Report
  /-- The entries under which the failure is logged and shown. -/
  | made (entries : List (String × Datum))
  /-- To list the context ends in an error of some label. -/
  | failing (label : String)
  /-- A value that was given lists the context. -/
  | foreign

/-- The report of the failure. -/
def report (f : Failure) : Report :=
  match f.context.listing with
  | .own =>
    let context := f.context.entries
    .made <|
      [("error_type", .text f.kind.label), ("message", .text f.message),
       ("category", .text f.category.label), ("fatal", .bool f.fatal)]
      ++ (if context.isEmpty then [] else [("context", .record context)])
      ++ (f.cause.map fun cause => ("cause", Datum.text cause.message)).toList
      ++ f.kind.reported
  | .masked => .failing "TypeError"
  | .recast => .failing "AttributeError"
  | .foreign => .foreign

/-- The entries of the report, if the context object lists itself. -/
def report? (f : Failure) : Option (List (String × Datum)) :=
  match f.report with
  | .made entries => some entries
  | _ => none

/-- The one-line description of a failure. -/
def description (f : Failure) : String :=
  f.kind.label ++ "(" ++ Text.quoted f.message ++ ", category=" ++ f.category.label ++ ")"

end Failure
end Infra
