import Infra.Backend.Registry
import Infra.Cli.Arguments
import Infra.Cli.Screen
import Infra.Config.File
import Infra.Graph.Cycle
import Infra.Store.Classify
import Infra.Unit.Load

/-!
# Commands

The commands of the tool on a tree of files. A command either prints a document in JSON, or lines
for a terminal, beside lines of errors and an exit code.

* `Cli.Outcome` : what a command prints, and its exit code;
* `Cli.project` : the discovery of a project whose configuration is read first;
* `Cli.list`, `Cli.graph`, `Cli.backends` : the commands; `Cli.run` : a command line.
-/

namespace Infra.Cli

open SourceUnit (ProjectFile)

/-- What a command prints, and its exit code. -/
structure Outcome where
  exit : Nat
  json : Option Datum
  lines : List String
  errors : List String
  deriving Repr

namespace Outcome

/-- Lines, and success. -/
def printed (lines : List String) : Outcome := ⟨0, none, lines, []⟩

/-- A wrong use of the command line. -/
def usage : Outcome := ⟨2, none, [], []⟩

/-- A fault that no command expects ends the command. -/
def crashed : Outcome := ⟨1, none, [], []⟩

/-- An error that ends the command. -/
def refused (message : String) : Outcome := ⟨1, none, [], textLines ("Error: " ++ message)⟩

end Outcome

/-- The name and the version of the tool. -/
def version : String := "tessera 0.1.0"

/-! ## Reports -/

/-- The report of a failure. -/
def failureForm (f : Failure) : Datum := .record (f.report?.getD [])

/-- The lines that report a failure. -/
def failureLines (f : Failure) : List String :=
  textLines ("Error [" ++ f.category.label ++ "] (" ++ f.kind.label ++ "): " ++ f.message)

/-- An entity or output as a row: its name, backend, type and kind. -/
def row (s : Store) (entry : String × Value) : List String :=
  match entry.2 with
  | .entity id =>
    let e := s.entity id
    [entry.1, e.backend, e.entityType, e.kind.label]
  | .output id => [entry.1, (s.output id).backend, "output", "output"]
  | _ => [entry.1, "", "", ""]

/-- The names of the columns of a row. -/
def columns : List String := ["name", "backend", "type", "kind"]

/-! ## Commands -/

/-- The tree of the bytes of a project. -/
def bytes (t : FileTree ProjectFile) : FileTree ByteArray := t.map ProjectFile.content

/-- Discovers the project in a directory, below the source directory that its configuration
names. -/
def project (reading : ConfigFile.Reading) (t : FileTree ProjectFile) (directory : Path) :
    Except Outcome (Store × Discovery) :=
  match (ConfigFile.load reading (bytes t) directory).result with
  | .error (.failed failure) => .error (.refused failure.message)
  | .error _ => .error .crashed
  | .ok found =>
    let sources := match found.config.sourceDir with
      | some name => if name.isEmpty then directory else directory.join (.ofString name)
      | none => directory
    match (SourceUnit.discover .standard t .initial sources).result with
    | (s, .ok discovery) => .ok (s, discovery)
    | (_, .error _) => .error .crashed

/-- Lists the entities of a project. -/
def list (reading : ConfigFile.Reading) (t : FileTree ProjectFile) (directory : Path)
    (json : Bool) : Outcome :=
  match project reading t directory with
  | .error outcome => outcome
  | .ok (s, d) =>
    let rows := d.entities.map (row s)
    let exit := if d.ok then 0 else 1
    if json then
      ⟨exit, some (.record [
        ("entities", .list (rows.map fun cells =>
          .record (columns.zip (cells.map Datum.text)))),
        ("errors", .list (d.failures.map failureForm))]), [], []⟩
    else
      ⟨exit, none, if rows.isEmpty then ["No items."] else tableLines "Entities" columns rows,
        d.failures.flatMap failureLines⟩

/-- The line that reports a cycle. -/
def cycleLines (cycle : List String) : List String :=
  textLines ("Cycle: " ++ String.intercalate " -> " (cycle ++ cycle.take 1))

/-- Shows the dependencies of the entities of a project. -/
def graph (reading : ConfigFile.Reading) (t : FileTree ProjectFile) (directory : Path)
    (json : Bool) : Outcome :=
  match project reading t directory with
  | .error outcome => outcome
  | .ok (_, d) =>
    let sorted := d.dependencies.map fun node => (node.1, Text.sorted node.2)
    let cycles := Graph.cycles d.dependencies
    let exit := if d.ok && cycles.isEmpty then 0 else 1
    if json then
      ⟨exit, some (.record [
        ("dependencies", .record (sorted.map fun node => (node.1, .texts node.2))),
        ("cycles", .list (cycles.map .texts)),
        ("errors", .list (d.failures.map failureForm))]), [], []⟩
    else
      ⟨exit, none, treeLines directory.toString sorted ++ cycles.flatMap cycleLines,
        d.failures.flatMap failureLines⟩

/-- Lists the backends. -/
def backends (json : Bool) : Outcome :=
  let (registry, names) := Registry.empty.names.result
  if json then ⟨0, some (.texts names), [], []⟩
  else
    .printed (tableLines "Backends" ["backend", "serializer"] (names.map fun name =>
      [name, ((registry.classes.lookup name).map (·.label)).getD ""]))

/-- What the tool says of its use. -/
def helpLines : List String :=
  ["Usage: tessera [OPTIONS] COMMAND [ARGS]...", "",
   "Commands:",
   "  list      List the entities declared in the project at PATH.",
   "  graph     Show the dependency graph of the project at PATH.",
   "  backends  List the registered backends."]

/-- Runs a command. -/
def runCommand (reading : ConfigFile.Reading) (t : FileTree ProjectFile) : Command → Outcome
  | .version => .printed [version]
  | .help => .printed helpLines
  | .list directory json => list reading t directory json
  | .graph directory json => graph reading t directory json
  | .backends json => backends json

/-- Runs a command line. -/
def run (reading : ConfigFile.Reading) (t : FileTree ProjectFile) (arguments : List String) :
    Outcome :=
  match Command.ofArguments? arguments with
  | some command => runCommand reading t command
  | none => .usage

end Infra.Cli
