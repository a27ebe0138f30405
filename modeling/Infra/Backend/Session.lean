import Infra.Backend.Registry

/-!
# Sessions of the registry

What a program does with the registry, one operation after the other: it binds classes, asks for
serializers and for the bound names, and clears the registry.

* `Serializer` : a serializer that a program holds;
* `RegistryOperation` : one operation; `RegistryAnswer` : what it gives;
* `RegistryState` : the registry, and the number of serializers so far;
* `RegistryState.perform` : an operation, with its events; `RegistryState.after`,
  `RegistryState.answer` : the state and the answer that it leaves;
* `RegistryState.run`, `RegistryState.answers` : those of several operations.
-/

namespace Infra

/-- A serializer of a class. The number of its making tells it from all others. -/
structure Serializer where
  number : Nat
  kind : SerializerClass
  deriving DecidableEq, Repr

/-- What a program does with the registry. -/
inductive RegistryOperation
  | register (name : String) (c : SerializerClass)
  | get (name : String)
  | list
  | clear
  deriving DecidableEq, Repr

/-- What an operation gives that is not refused. -/
inductive RegistryAnswer
  | registered (c : SerializerClass)
  | made (serializer : Serializer)
  | listed (names : List String)
  | cleared
  deriving DecidableEq, Repr

/-- The state on which operations work: the registry, and the number of serializers made so far. -/
structure RegistryState where
  registry : Registry
  made : Nat
  deriving DecidableEq, Repr

namespace RegistryState

def initial : RegistryState := ⟨.empty, 0⟩

/-- The class bound to a name. -/
def classOf? (s : RegistryState) (name : String) : Option SerializerClass :=
  s.registry.classes.lookup name

/-- A new serializer of a class. -/
def make (s : RegistryState) (c : SerializerClass) : RegistryState × Serializer :=
  ({ s with made := s.made + 1 }, ⟨s.made, c⟩)

/-- An operation: the state after it, and its answer or the reason why it is refused. -/
def perform (s : RegistryState) : RegistryOperation →
    Logged (RegistryState × Except Fault RegistryAnswer)
  | .register name c => do
    let (registry, result) ← s.registry.register name c
    pure ({ s with registry := registry }, result.map fun _ => .registered c)
  | .get name => do
    let (registry, result) ← s.registry.find name
    let s := { s with registry := registry }
    match result with
    | .ok c =>
      let (s, serializer) := s.make c
      pure (s, .ok (.made serializer))
    | .error fault => pure (s, .error fault)
  | .list => do
    let (registry, names) ← s.registry.names
    pure ({ s with registry := registry }, .ok (.listed names))
  | .clear => pure ({ s with registry := s.registry.clear }, .ok .cleared)

/-- The state after an operation. -/
def after (s : RegistryState) (op : RegistryOperation) : RegistryState := (s.perform op).result.1

/-- What an operation gives. -/
def answer (s : RegistryState) (op : RegistryOperation) : Except Fault RegistryAnswer :=
  (s.perform op).result.2

/-- The state after several operations. -/
def run (s : RegistryState) (ops : List RegistryOperation) : RegistryState := ops.foldl after s

/-- What several operations give. -/
def answers (s : RegistryState) : List RegistryOperation → List (Except Fault RegistryAnswer)
  | [] => []
  | op :: rest => s.answer op :: (s.after op).answers rest

theorem run_append (s : RegistryState) (ops more : List RegistryOperation) :
    s.run (ops ++ more) = (s.run ops).run more := List.foldl_append

end RegistryState
end Infra
