import Infra.Log.Event
import Infra.Template.Check

/-!
# Registry of backends

Serializer classes by the name of their backend. A name keeps the class that it was bound to until
the registry is cleared; the built-in class is bound on the first look-up, unless its name is taken.

* `SerializerClass` : a class and what every serializer of it has;
* `Registry.register`, `Registry.find`, `Registry.names`, `Registry.clear` : the operations.
-/

namespace Infra

/-- A class of serializers: the built-in one, or one of a plug-in with its name and backend. Classes
of one name and backend are told apart by a number. -/
inductive SerializerClass
  | template
  | custom (label backend : String) (number : Nat := 0)
  deriving DecidableEq, Repr

namespace SerializerClass

/-- The name of the class. -/
def label : SerializerClass → String
  | template => "TemplateSerializer"
  | custom label _ _ => label

/-- The backend whose entities the serializers render. -/
def backend : SerializerClass → String
  | template => Template.backend
  | custom _ backend _ => backend

/-- The file name of a primary document, unless a class has its own. -/
def standardFile : String := "main.out"

/-- The file name of the primary document. -/
def primaryFile : SerializerClass → String
  | template => "main.template.json"
  | custom .. => standardFile

/-- The checks over the documents of the serializers. -/
def checks : SerializerClass → List Check
  | template => Template.checks
  | custom .. => []

/-- How the serializers refer to an output of another backend. -/
def crossReference : SerializerClass → Template.CrossReference := fun _ => Template.markOutput

end SerializerClass

/-- The registered classes by backend name, and whether the built-in one has been looked for. -/
structure Registry where
  classes : List (String × SerializerClass)
  loaded : Bool
  deriving DecidableEq, Repr

namespace Registry

def empty : Registry := ⟨[], false⟩

/-- The logger of this part. -/
def logger : String := "tessera.backends.registry"

/-- Binds a name to a class; a name that is bound to another class is refused. -/
def register (r : Registry) (name : String) (c : SerializerClass) :
    Logged (Registry × Except Fault Unit) := do
  match r.classes.lookup name with
  | some held =>
    if held ≠ c then pure (r, .error (.backendTaken name))
    else
      Logged.tell ⟨.debug, logger, "backend_registered",
        [("name", .text name), ("cls", .text c.label)]⟩
      pure (r, .ok ())
  | none =>
    Logged.tell ⟨.debug, logger, "backend_registered",
      [("name", .text name), ("cls", .text c.label)]⟩
    pure ({ r with classes := r.classes ++ [(name, c)] }, .ok ())

/-- Binds the built-in class, unless that was done before or its name is taken. -/
def ensureLoaded (r : Registry) : Logged Registry := do
  if r.loaded then pure r
  else
    let classes := match r.classes.lookup Template.backend with
      | some _ => r.classes
      | none => r.classes ++ [(Template.backend, .template)]
    Logged.tell ⟨.debug, logger, "backend_registry_loaded", [("registered", .int classes.length)]⟩
    pure ⟨classes, true⟩

/-- The bound names, sorted. -/
def boundNames (r : Registry) : List String := Text.sorted (r.classes.map (·.1))

/-- The class bound to a name. -/
def find (r : Registry) (name : String) : Logged (Registry × Except Fault SerializerClass) := do
  let r ← r.ensureLoaded
  match r.classes.lookup name with
  | some c => pure (r, .ok c)
  | none => pure (r, .error (.failed (.unknownBackend name r.boundNames)))

/-- All bound names, sorted. -/
def names (r : Registry) : Logged (Registry × List String) := do
  let r ← r.ensureLoaded
  pure (r, r.boundNames)

/-- Forgets every class. -/
def clear (_ : Registry) : Registry := empty

end Registry
end Infra
