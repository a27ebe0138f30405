import Infra.Expr.Evaluation

/-!
# Construction of failures

A class of failures is called with arguments, by position and by name. Its signature says which it
takes, and a call of any others is refused.

* `Failure.Signature` : the parameters of a class; `Failure.signature` : those of each class;
* `Failure.Signature.bind` : the arguments of a call by parameter;
* `Failure.construct` : the failure that a call makes, which is of the kind of its class
  (`Failure.label_ofArguments`).
-/

namespace Infra.Failure

/-- The parameters of a class: those that a call has to give, those that it may give, and those that
it may give by name only. Some classes take the options of all failures too, by name. -/
structure Signature where
  required : List String
  optional : List String
  named : List String
  options : Bool
  deriving DecidableEq, Repr

/-- The names of the options of all failures. -/
def optionNames : List String := ["category", "fatal", "context", "cause"]

/-- The signature of the class of a name; most classes have the one of all failures. -/
def signature (label : String) : Signature :=
  match label with
  | "DiscoveryError" | "LoadError" | "ResolutionError" =>
    ⟨["file", "message"], [], ["error_type"], true⟩
  | "DuplicateEntityError" => ⟨["name", "file"], ["message"], [], false⟩
  | "DanglingReferenceError" => ⟨["path"], ["message"], [], false⟩
  | "SerializationError" => ⟨["message"], [], ["entity"], true⟩
  | "BuildError" => ⟨["entity_name", "message"], [], [], true⟩
  | "CycleDetectedError" => ⟨["cycle"], [], [], false⟩
  | "InvalidConfigError" => ⟨["key", "value"], ["message"], [], false⟩
  | "InvalidCompositeError" => ⟨["composite", "member"], ["message"], [], false⟩
  | "BackendNotFoundError" => ⟨["name"], ["available"], [], false⟩
  | _ => ⟨["message"], [], [], true⟩

/-- Whether a keyword of a call is an option. -/
def Signature.isOption (g : Signature) (name : String) : Bool :=
  g.options && optionNames.contains name

/-- The arguments of a call by parameter. -/
def Signature.bind (g : Signature) (arguments : List Value) (keywords : List (String × Value)) :
    Except Fault (List (String × Value)) := do
  let (named, others) := keywords.partition fun entry => g.named.contains entry.1
  let params := g.required.map (·, none) ++ g.optional.map (·, some (Expr.literal .null))
  return (← Eval.bindArguments params arguments others) ++ named

/-- The texts of the items of a list. -/
def textsOf (s : Store) : Value → List String
  | .sequence id => (s.sequence id).items.map fun item => item.text?.getD ""
  | _ => []

/-- The failure of a class with given arguments. -/
def ofArguments (s : Store) (label : String) (given : List (String × Value)) (options : Options) :
    Failure :=
  let value (name : String) : Value := (given.lookup name).getD .null
  let text? (name : String) : Option String := (value name).text?
  let text (name : String) : String := (text? name).getD ""
  match label with
  | "DiscoveryError" =>
    make (.discovery (text "file") (text? "error_type")) (text "message") options
  | "LoadError" => make (.load (text "file") (text? "error_type")) (text "message") options
  | "ResolutionError" =>
    make (.resolution (text "file") (text? "error_type")) (text "message") options
  | "DuplicateEntityError" => duplicate (text "name") (text "file") (text? "message")
  | "DanglingReferenceError" => dangling (text "path") (text? "message")
  | "SerializationError" =>
    let f := make .serialization (text "message") options
    { f with context.entity := ((text? "entity").map Datum.text).getD f.context.entity }
  | "BuildError" => make (.build (text "entity_name")) (text "message") options
  | "CycleDetectedError" => cycle (textsOf s (value "cycle"))
  | "ConfigError" => make .config (text "message") options
  | "InvalidConfigError" => invalidConfig (text "key") (.leaf (value "value"))
      (wording (text? "message")
        ("Invalid configuration for " ++ text "key" ++ ": " ++ s.written (value "value")))
  | "InvalidCompositeError" => invalidComposite (text "composite") (text "member") (text? "message")
  | "BackendNotFoundError" => unknownBackend (text "name") (textsOf s (value "available"))
  | _ => make .general (text "message") options

/-- The names of the classes. -/
def labels : List String :=
  ["TesseraError", "DiscoveryError", "LoadError", "ResolutionError", "DuplicateEntityError",
   "DanglingReferenceError", "SerializationError", "BuildError", "CycleDetectedError",
   "ConfigError", "InvalidConfigError", "InvalidCompositeError", "BackendNotFoundError"]

/-- A class makes failures of its own kind. -/
theorem label_ofArguments (s : Store) {label : String} (known : label ∈ labels)
    (given : List (String × Value)) (options : Options) :
    (ofArguments s label given options).kind.label = label := by
  simp only [labels, List.mem_cons, List.not_mem_nil, or_false] at known
  rcases known with rfl | rfl | rfl | rfl | rfl | rfl | rfl | rfl | rfl | rfl | rfl | rfl | rfl
  all_goals rfl

/-- The failure that a call of a class makes. The options stand beside the other keywords. -/
def construct (s : Store) (label : String) (arguments : List Value)
    (keywords : List (String × Value)) (options : Options) : Except Fault Failure := do
  let given ← (signature label).bind arguments keywords
  return ofArguments s label given options

end Infra.Failure
