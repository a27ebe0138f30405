import Infra.Fault
import Infra.Json.Reader
import Infra.Settings.Basic
import Infra.Settings.EnvironmentFile

/-!
# Reading settings

A setting is taken from the first source that has it: the entries given by the caller, the
variables of the process, and the variables of an environment file. A variable belongs to a
setting by its name in any case, after the prefix of the tool; a setting that is a list is spelled
in JSON there, where null counts as unset.

* `Settings.Sources` : where settings come from;
* `Settings.ofVariables` : the entries that variables spell;
* `Settings.read` : the settings of all sources.
-/

namespace Infra.Settings

open EnvironmentFile (Variables)

/-- Where settings come from, apart from the caller. -/
structure Sources where
  process : Variables
  /-- The text of the environment file, if there is one. -/
  file : Option String
  deriving Repr

def Sources.none : Sources := ⟨[], .none⟩

/-- What the names of variables begin with. -/
def variablePrefix : String := "tessera_"

/-- The lower case of a character in the name of a variable. Besides the letters of ASCII only the
sign of the kelvin has one there. -/
def lowerChar (c : Char) : Char := if c = '\u212a' then 'k' else c.toLower

/-- Variables by lower-case name; the last of those that fall together counts. -/
def byLowerName (given : Variables) : Variables :=
  given.foldl (fun all entry => Named.insert all (entry.1.map lowerChar) entry.2) []

/-- The value that a variable spells for a setting; null is none. -/
def valueOf (form : Form) (text : String) : Except Fault (Option Datum) :=
  match form with
  | .text => .ok (some (.text text))
  | .texts =>
    match Json.read text with
    | .ok d => .ok (if d.isNull then none else some d)
    | .error _ => .error (.unreadableSetting text)

/-- The entries that variables spell. -/
def ofVariables (given : Variables) : Except Fault (List (String × Datum)) := do
  let lowered := byLowerName given
  let found ← forms.mapM fun (name, form) => do
    match lowered.lookup (variablePrefix ++ name) with
    | some text => (·.map fun d => (name, d)) <$> valueOf form text
    | .none => pure none
  pure (found.filterMap id)

/-- The settings of all sources. A variable that cannot be read is refused even where an earlier
source has the setting. -/
def read (given : List (String × Datum)) (sources : Sources) : Except Fault Settings := do
  let process ← ofVariables sources.process
  let file ← ofVariables ((sources.file.map (EnvironmentFile.read sources.process)).getD [])
  (ofEntries (given ++ process ++ file)).mapError fun found =>
    .invalidSettings (found.map fun f => (f.place, f.message))

end Infra.Settings
