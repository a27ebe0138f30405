import Infra.Schema
import Infra.Text.Quoted
import Infra.Unit.Name

/-!
# Settings

How a project is scanned and how the tool reports. Settings are checked field by field, in the
order of their declaration.

* `Settings` : the settings; `Settings.standard` : what they are unless they are given;
* `Settings.ofEntries` : the settings that some entries give;
* `Settings.entries` : all settings by name.
-/

namespace Infra

/-- How a project is scanned and how the tool reports. -/
structure Settings where
  logLevel : String
  logFormat : String
  sourceSuffix : String
  testPatterns : List String
  excludedDirs : List String
  boundaryMarker : String
  outputDir : String
  deriving DecidableEq, Repr

namespace Settings

/-- The directories that are never scanned. -/
def standardExcludedDirs : List String :=
  ["__pycache__", ".venv", "venv", ".git", "node_modules", "site-packages", ".tox", "build", "dist"]

def standard : Settings where
  logLevel := "WARNING"
  logFormat := "console"
  sourceSuffix := ".py"
  testPatterns := SourceUnit.standardTestPatterns
  excludedDirs := standardExcludedDirs
  boundaryMarker := "_.py"
  outputDir := "dist"

/-- A setting is a text, or a list of texts. -/
inductive Form
  | text | texts
  deriving DecidableEq, Repr

/-- The settings by name, with their forms. -/
def forms : List (String × Form) :=
  [("log_level", .text), ("log_format", .text), ("source_suffix", .text), ("test_patterns", .texts),
   ("excluded_dirs", .texts), ("boundary_marker", .text), ("output_dir", .text)]

/-- All settings by name. -/
def entries (s : Settings) : List (String × Datum) :=
  [("log_level", .text s.logLevel), ("log_format", .text s.logFormat),
   ("source_suffix", .text s.sourceSuffix), ("test_patterns", .texts s.testPatterns),
   ("excluded_dirs", .texts s.excludedDirs), ("boundary_marker", .text s.boundaryMarker),
   ("output_dir", .text s.outputDir)]

/-- The names of the log formats. -/
def logFormats : List String := ["json", "console"]

/-- The name of a log format. -/
def checkFormat (d : Datum) : Checked String :=
  (Checked.text d).bind fun format =>
    if logFormats.contains format then .ok format
    else Checked.refuse d ("Value error, log_format must be 'json' or 'console', got "
      ++ Text.quoted format)

/-- The settings that entries give; the others are standard, and other names are passed over. -/
def ofEntries (given : List (String × Datum)) : Checked Settings :=
  let named := given.map fun entry => (Value.text entry.1, entry.2)
  let text (name standard : String) : Checked String :=
    Checked.entry named name standard Checked.text
  let texts (name : String) (standard : List String) : Checked (List String) :=
    Checked.entry named name standard Checked.texts
  let s := standard
  let report := Checked.and (text "log_level" s.logLevel)
    (Checked.entry named "log_format" s.logFormat checkFormat)
  let units := Checked.and (text "source_suffix" s.sourceSuffix)
    (texts "test_patterns" s.testPatterns)
  let places := Checked.and (texts "excluded_dirs" s.excludedDirs)
    (Checked.and (text "boundary_marker" s.boundaryMarker) (text "output_dir" s.outputDir))
  (Checked.and report (Checked.and units places)).map
    fun ((logLevel, logFormat), (suffix, patterns), excluded, marker, output) =>
      ⟨logLevel, logFormat, suffix, patterns, excluded, marker, output⟩

end Settings
end Infra
