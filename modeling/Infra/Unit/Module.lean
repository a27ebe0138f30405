import Infra.Expr.Evaluation
import Infra.FileTree
import Infra.Unit.Exports
import Infra.Unit.Statement

/-!
# Modules

A unit is loaded as the module of its dotted name. A module is a package, whose directory is
searched for its submodules, or a single file, or a plain directory without statements of its own;
in this order they are looked for below the directory of the parent, or below the root of the
project. What a module binds is known while it runs and stays after it has been loaded.

* `ModuleFault` : why a module is refused;
* `ProjectFile`, `Module`, `Located` : files, modules, and what a name is found as;
* `Modules` : all modules with the store; `Load` : a computation that loads modules;
* `Load.binding`, `Load.value` : what a term stands for in a module;
* `Load.execute` : the effect of a statement, given how modules are loaded.
-/

namespace Infra.SourceUnit

/-! ## Refusals -/

/-- Why a module is refused. -/
inductive ModuleFault
  /-- Nothing is found under the name. -/
  | missing (name : String)
  /-- The parent is a single file. -/
  | noPackage (name parent : String)
  /-- A module binds no such name; `loading` tells that it has not run to its end. -/
  | noName (name module : String) (file : Option Path) (loading : Bool)
  /-- A module has no such field. -/
  | noField (name module : String) (loading : Bool)
  /-- A name is not bound. -/
  | unbound (name : String)
  /-- A line of a file is no statement. -/
  | malformed (file : String) (line : Nat)
  /-- The name of a unit is taken by a module outside the project. -/
  | taken (name : String) (builtIn : Bool)
  /-- A name that begins with a dot is relative to no package. -/
  | relative (name : String)
  | noParent
  | beyondTop
  deriving DecidableEq, Repr

namespace ModuleFault

def circularHint : String := " (most likely due to a circular import)"

/-- The fault as a report sees it. -/
def raised : ModuleFault → Raised
  | missing name => ⟨"ModuleNotFoundError", some ("No module named " ++ Text.quoted name)⟩
  | noPackage name parent => ⟨"ModuleNotFoundError", some
      ("No module named " ++ Text.quoted name ++ "; " ++ Text.quoted parent ++ " is not a package")⟩
  | noName name module file loading =>
    let start := "cannot import name " ++ Text.quoted name ++ " from "
    ⟨"ImportError", some <| match file, loading with
      | none, _ => start ++ Text.quoted module ++ " (unknown location)"
      | some path, true => start ++ "partially initialized module " ++ Text.quoted module
          ++ circularHint ++ " (" ++ path.toString ++ ")"
      | some path, false => start ++ Text.quoted module ++ " (" ++ path.toString ++ ")"⟩
  | noField name module loading =>
    ⟨"AttributeError", some <|
      if loading then
        "partially initialized module '" ++ module ++ "' has no attribute '" ++ name ++ "'"
          ++ circularHint
      else "module '" ++ module ++ "' has no attribute '" ++ name ++ "'"⟩
  | unbound name => ⟨"NameError", some ("name '" ++ name ++ "' is not defined")⟩
  | malformed file line =>
    ⟨"SyntaxError", some ("invalid syntax (" ++ file ++ ", line " ++ toString line ++ ")")⟩
  | taken name builtIn =>
    ⟨"ImportError", some ("module name " ++ Text.quoted name ++ " is already taken by "
      ++ (if builtIn then "a built-in module" else "<location>"))⟩
  | relative name => ⟨"TypeError", some
      ("the 'package' argument is required to perform a relative import for "
        ++ Text.quoted name)⟩
  | noParent =>
    ⟨"ImportError", some "attempted relative import with no known parent package"⟩
  | beyondTop => ⟨"ImportError", some "attempted relative import beyond top-level package"⟩

def toFault (f : ModuleFault) : Fault := .raised f.raised

end ModuleFault

/-! ## Modules -/

/-- A file of a project: a unit with its statements, or bytes. -/
inductive ProjectFile
  | unit (statements : List Statement)
  | bytes (content : ByteArray)

namespace ProjectFile

/-- The statements that run when the file is loaded. -/
def statements : ProjectFile → List Statement
  | unit statements => statements
  | bytes _ => []

/-- The bytes of the file; those of a unit are of no use. -/
def content : ProjectFile → ByteArray
  | unit _ => .empty
  | bytes content => content

end ProjectFile

/-- What a name of a module is bound to: a value, or the module of a name. -/
inductive Binding
  | value (v : Value)
  | module (name : String)
  deriving DecidableEq, Repr

/-- The value that a binding exports. -/
def Binding.export : Binding → Value
  | value v => v
  | module _ => .module

/-- A module: what it binds, the directory of its submodules if it is a package, the file it runs,
and whether it is still running. -/
structure Module where
  bindings : List (String × Binding)
  package : Option Path
  file : Option Path
  loading : Bool
  deriving Repr

/-- What a module name is found as. -/
inductive Located
  | package (directory file : Path) (content : ProjectFile)
  | single (file : Path) (content : ProjectFile)
  | plain (directory : Path)

/-- What the last part of a module name is found as below a directory. -/
def locate? (t : FileTree ProjectFile) (directory : Path) (part : String) : Option Located :=
  let inner := directory.child part
  let initial := inner.child "__init__.py"
  let single := directory.child (part ++ ".py")
  match t.fileAt? initial, t.fileAt? single, t.find? inner with
  | some content, _, _ => some (.package inner initial content)
  | none, some content, _ => some (.single single content)
  | none, none, some (.directory _) => some (.plain inner)
  | none, none, _ => none

/-- The modules outside the project whose names a unit may not have, and whether they are built
in. -/
def takenNames : List (String × Bool) :=
  [("json", false), ("json.decoder", false), ("json.encoder", false), ("json.scanner", false),
   ("sys", true)]

/-- Whether what a module runs, or else searches for its submodules, is below a directory. -/
def Module.isBelow (m : Module) (root : Path) : Bool :=
  ((m.file <|> m.package).bind (·.relativeTo? root)).isSome

/-- A module outside the project. -/
def takenModule (entry : String × Bool) : String × Module :=
  (entry.1, ⟨[], if entry.1 = "json" then some ⟨"/", ["json"]⟩ else none, none, false⟩)

/-- The modules that are loaded or being loaded, and the store of all values. -/
structure Modules where
  store : Store
  modules : List (String × Module)
  deriving Repr

namespace Modules

/-- No module of the project is loaded. -/
def start (s : Store) : Modules := ⟨s, takenNames.map takenModule⟩

def find? (m : Modules) (name : String) : Option Module := m.modules.lookup name

def isKnown (m : Modules) (name : String) : Bool := (m.find? name).isSome

def add (m : Modules) (name : String) (module : Module) : Modules :=
  { m with modules := Named.insert m.modules name module }

def remove (m : Modules) (name : String) : Modules :=
  { m with modules := Named.erase m.modules name }

def modify (m : Modules) (name : String) (f : Module → Module) : Modules :=
  { m with modules := m.modules.map fun entry =>
      if entry.1 == name then (entry.1, f entry.2) else entry }

/-- Forgets the modules below a directory, but for those outside the project. -/
def leave (m : Modules) (root : Path) : Modules :=
  { m with modules := m.modules.filter fun entry =>
      (takenNames.lookup entry.1).isSome || !entry.2.isBelow root }

/-- Binds a name in a module. -/
def bind (m : Modules) (module name : String) (b : Binding) : Modules :=
  m.modify module fun held => { held with bindings := Named.insert held.bindings name b }

/-- Unbinds a name in a module. -/
def unbind (m : Modules) (module name : String) : Modules :=
  m.modify module fun held => { held with bindings := Named.erase held.bindings name }

/-- What a name is bound to in a module. -/
def binding? (m : Modules) (module name : String) : Option Binding :=
  (m.find? module).bind fun held => held.bindings.lookup name

end Modules

/-- A computation that loads modules and may be refused. -/
abbrev Load (α : Type) := EStateM Fault Modules α

/-! ## Names of modules -/

/-- The dotted name with the last part dropped, if it has several. -/
def parentName? (name : String) : Option String :=
  match (name.splitOn ".").dropLast with
  | [] => none
  | parts => some (String.intercalate "." parts)

/-- The last part of a dotted name. -/
def lastPart (name : String) : String := (name.splitOn ".").getLastD name

/-- A dotted name after all names of its packages, the outermost first. -/
def withParents (name : String) : List String :=
  let parts := name.splitOn "."
  (List.range parts.length).map fun n => String.intercalate "." (parts.take (n + 1))

namespace Load

/-- Refuses a module. -/
def refuse {α : Type} (f : ModuleFault) : Load α := throw f.toFault

/-- Evaluates in the store. -/
def evaluate {α : Type} (e : Eval α) : Load α := do
  let m ← get
  match e.run m.store with
  | .ok a s => do
    set { m with store := s }
    pure a
  | .error fault s => do
    set { m with store := s }
    throw fault

/-! ## Terms -/

/-- A field of what a name is bound to. -/
def field (b : Binding) (name : String) : Load Binding := do
  match b with
  | .value v => .value <$> evaluate (Eval.field v name)
  | .module m =>
    let known ← get
    match known.binding? m name with
    | some found => pure found
    | none => refuse (.noField name m (((known.find? m).map (·.loading)).getD false))

/-- What a name and its fields stand for in a module. -/
def named (module first : String) (fields : List String) : Load Binding := do
  match (← get).binding? module first with
  | some b => fields.foldlM field b
  | none => refuse (.unbound first)

mutual

/-- The value of a term in a module. -/
def value (module : String) : Term → Load Value
  | .scalar v => pure v
  | .list items => do
    let vs ← values module items
    evaluate (Eval.make (·.newSequence .list vs))
  | .table entries => do
    let made ← tableEntries module entries
    let s := (← get).store
    let kept := made.foldl (fun kept entry => s.insertEntry kept entry.1 entry.2) []
    .mapping <$> evaluate (Eval.make (·.newMapping kept))
  | .name first fields => do
    match ← named module first fields with
    | .value v => pure v
    | .module _ => pure .module
  | .resource backend entityType attributes =>
    evaluate (Eval.entity .resource "Resource" backend entityType []
      (Named.ofList (attributes.map fun name => (name, name))) none)

/-- The values of terms in a module, in order. -/
def values (module : String) : List Term → Load (List Value)
  | [] => pure []
  | term :: rest => do
    let v ← value module term
    pure (v :: (← values module rest))

/-- The values of entries in a module, in order. -/
def tableEntries (module : String) : List (Value × Term) → Load (List (Value × Value))
  | [] => pure []
  | (key, term) :: rest => do
    let v ← value module term
    pure ((key, v) :: (← tableEntries module rest))

end

/-- What a term stands for in a module: a name of a module stands for it. -/
def binding (module : String) (term : Term) : Load Binding := do
  match term with
  | .name first fields => named module first fields
  | _ => .value <$> value module term

/-- The values of named terms in a module, in order. -/
def namedValues (module : String) (entries : List (String × Term)) :
    Load (List (String × Value)) :=
  entries.mapM fun entry => do pure (entry.1, ← value module entry.2)

/-! ## Statements -/

/-- The absolute name of a module that another one names: each leading dot goes up a package. -/
def absoluteName (module name : String) : Load String := do
  let dots := (name.toList.takeWhile (· == '.')).length
  if dots = 0 then pure name
  else do
    let held := (← get).find? module
    let package := if (held.bind (·.package)).isSome then module else (parentName? module).getD ""
    if package.isEmpty then refuse .noParent
    let parts := package.splitOn "."
    if parts.length < dots then refuse .beyondTop
    let base := String.intercalate "." (parts.take (parts.length - (dots - 1)))
    let rest := String.ofList (name.toList.drop dots)
    pure (if rest.isEmpty then base else base ++ "." ++ rest)

/-- Refuses to search a plain directory one of whose packages has been forgotten, for its place is
asked from them. The packages are given from the innermost outwards. -/
def checkPackages : List String → Load Unit
  | [] | [_] => pure ()
  | name :: parent :: outer => do
    let known ← get
    match known.find? name with
    | some held =>
      if held.file.isSome then pure ()
      else if known.isKnown parent then checkPackages (parent :: outer)
      else throw (.missingKey parent)
    | none => pure ()

/-- The directory of a package that is searched for its submodules. -/
def packageDirectory? (module : String) : Load (Option Path) := do
  match ((← get).find? module).bind (·.package) with
  | some directory => do
    checkPackages (withParents module).reverse
    pure (some directory)
  | none => pure none

/-- Loads the submodules among names that a package does not bind. -/
def loadSubmodules (t : FileTree ProjectFile) (load : String → Load Unit) (module : String)
    (names : List String) : Load Unit := do
  for name in names do
    let known ← get
    let full := module ++ "." ++ name
    if (known.binding? module name).isSome then pure ()
    else if known.isKnown full then pure ()
    else
      match ← packageDirectory? module with
      | some directory => if (locate? t directory name).isSome then load full
      | none => pure ()

/-- What a name of a loaded module stands for. -/
def taken (module name : String) : Load Binding := do
  let known ← get
  let full := module ++ "." ++ name
  match known.binding? module name with
  | some b => pure b
  | none =>
    if known.isKnown full then pure (.module full)
    else
      let held := known.find? module
      refuse (.noName name module (held.bind (·.file)) ((held.map (·.loading)).getD false))

/-- Binds a name of a module. -/
def bindName (module name : String) (b : Binding) : Load Unit := modify (·.bind module name b)

/-- The effect of a statement of a module, given how modules are loaded. -/
def execute (t : FileTree ProjectFile) (load : String → Load Unit) (module : String) :
    Statement → Load Unit
  | .bind name term => do bindName module name (← binding module term)
  | .resource name backend entityType accessors props => do
    let given ← namedValues module props
    let v ← evaluate (Eval.entity .resource "Resource" backend entityType (Eval.textKeys given)
      (Named.ofList accessors) none)
    bindName module name (.value v)
  | .property name backend entityType props => do
    let given ← namedValues module props
    let v ← evaluate (Eval.entity .property "Property" backend entityType (Eval.textKeys given)
      [] none)
    bindName module name (.value v)
  | .output name reference outputName => do
    let source ← value module reference
    let v ← evaluate do
      let r ← Eval.referenceOf source "parent_handle"
      Eval.make (·.newOutput ⟨r.parent, r.backend, r.attr, outputName, ""⟩)
    bindName module name (.value v)
  | .composite name label members => do
    let made ← namedValues module members
    let v ← evaluate do
      let checked ← Eval.ofExcept (Eval.membersOf label made)
      let definition ← Eval.make (·.newDefinition ⟨label, [], [], [], [], []⟩ true)
      match definition with
      | .definition id => Eval.make (·.newComposite ⟨id, checked, none, false⟩)
      | other => pure other
    bindName module name (.value v)
  | .assign entity key term => do
    let v ← value module term
    let target ← value module entity
    evaluate do
      match ← Eval.field target "props" with
      | .mapping bag =>
        modify fun s => s.setMapping bag (s.insertEntry (s.mapping bag) (.text key) v)
      | other => throw (.wrongType
          ("'" ++ other.typeName ++ "' object does not support item assignment"))
  | .take source names => do
    let full ← absoluteName module source
    load full
    loadSubmodules t load full (names.map (·.1))
    for (name, bound) in names do
      bindName module (bound.getD name) (← taken full name)
  | .load name => do
    let top := (name.splitOn ".").headD name
    load name
    load top
    bindName module top (.module top)
  | .exports names => do
    let v ← evaluate (Eval.make (·.newSequence .list (names.map .text)))
    bindName module "__all__" (.value v)
  | .raises error => throw (.raised error)
  | .forget name => do
    match (← get).binding? module name with
    | some _ => modify (·.unbind module name)
    | none => refuse (.unbound name)
  | .malformed => pure ()

end Load
end Infra.SourceUnit
