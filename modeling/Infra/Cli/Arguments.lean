import Infra.Path

/-!
# Arguments

A command line names a command, its options and a project directory. Options may stand before and
after the directory, and an argument of two hyphens ends them.

* `Cli.Command` : what a command line asks for;
* `Cli.Command.ofArguments?` : the command of a command line; none if its use is wrong.
-/

namespace Infra.Cli

/-- What a command line asks for. -/
inductive Command
  | version
  | help
  | list (project : Path) (json : Bool)
  | graph (project : Path) (json : Bool)
  | backends (json : Bool)
  deriving DecidableEq, Repr

/-- What the arguments of a command give: whether help or JSON is asked for, and the operands. -/
structure Given where
  help : Bool
  json : Bool
  operands : List String
  deriving DecidableEq, Repr

/-- Reads the arguments of a command. -/
def Given.ofArguments? : Given → List String → Option Given
  | g, [] => some g
  | g, "--" :: rest => some { g with operands := g.operands ++ rest }
  | g, "--json" :: rest => Given.ofArguments? { g with json := true } rest
  | g, "--help" :: rest => Given.ofArguments? { g with help := true } rest
  | g, argument :: rest =>
    if argument.startsWith "-" && argument != "-" then none
    else Given.ofArguments? { g with operands := g.operands ++ [argument] } rest

/-- The project directory among operands: the current one where none is given. -/
def directory? : List String → Option Path
  | [] => some (.ofString ".")
  | [path] => some (.ofString path)
  | _ => none

/-- The command of a name with its arguments. -/
def Command.named? (name : String) (arguments : List String) : Option Command := do
  let g ← Given.ofArguments? ⟨false, false, []⟩ arguments
  match name with
  | "list" => if g.help then some .help else (directory? g.operands).map (.list · g.json)
  | "graph" => if g.help then some .help else (directory? g.operands).map (.graph · g.json)
  | "backends" =>
    if g.help then some .help else if g.operands.isEmpty then some (.backends g.json) else none
  | _ => none

/-- The arguments before the command: whether the version or help is asked for first. -/
def leading? : Option Command → List String → Option (Option Command × List String)
  | asked, [] => some (asked, [])
  | asked, "--" :: rest => some (asked, rest)
  | asked, argument :: rest =>
    if argument = "--version" ∨ argument = "-V" then leading? (asked.or (some .version)) rest
    else if argument = "--help" then leading? (asked.or (some .help)) rest
    else if argument.startsWith "-" && argument != "-" then none
    else some (asked, argument :: rest)

/-- The command of a command line. -/
def Command.ofArguments? (arguments : List String) : Option Command := do
  match ← leading? none arguments with
  | (some asked, _) => some asked
  | (none, name :: rest) => Command.named? name rest
  | (none, []) => none

end Infra.Cli
