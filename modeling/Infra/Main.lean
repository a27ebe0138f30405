import Infra.Cli.Bundle
import Infra.Cli.Run
import Infra.Json.Writer

/-!
# The command line

Runs a command on the tree of files that standard input holds as a bundle in JSON. The exit code is
the one of the command; an unreadable bundle counts as a wrong use.
-/

namespace Infra.Cli

/-- Prints lines to a stream. -/
def printLines (stream : IO.FS.Stream) (lines : List String) : IO Unit :=
  lines.forM stream.putStrLn

/-- Prints what a command prints, and gives its exit code. -/
def printOutcome (outcome : Outcome) : IO UInt32 := do
  let output ← IO.getStdout
  match outcome.json with
  | some d =>
    match Json.document d with
    | .ok text => output.putStrLn text
    | .error fault => (← IO.getStderr).putStrLn fault.text
  | none => printLines output outcome.lines
  printLines (← IO.getStderr) outcome.errors
  pure outcome.exit.toUInt32

/-- How the tool reads configuration files: to any depth, and with one complaint. -/
def reading : ConfigFile.Reading := ⟨none, fun _ => "invalid document"⟩

/-- Reads all lines of a stream. -/
partial def readAll (stream : IO.FS.Stream) (text : String) : IO String := do
  let line ← stream.getLine
  if line.isEmpty then pure text else readAll stream (text ++ line)

end Infra.Cli

open Infra Cli

/-- The command line of the tool. -/
def main (arguments : List String) : IO UInt32 := do
  let text ← readAll (← IO.getStdin) ""
  match Json.read (if text.isEmpty then "\x7b\x7d" else text) with
  | .ok d => printOutcome (run reading (Bundle.tree "." d) arguments)
  | .error fault => do
    (← IO.getStderr).putStrLn (fault.text text.toList)
    pure 2
