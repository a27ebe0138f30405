import Infra.Schema

/-!
# Project configuration

A project names the backends it builds, the directory of its sources and the checks it runs. Every
entry may be left out, and entries of other names are kept as they are.

* `ProjectConfig`, `LintConfig` : a configuration and its part about checks;
* `LintConfig.isDisabled` : whether a check is switched off;
* `ProjectConfig.ofTable` : the configuration that a table spells.
-/

namespace Infra

/-- The checks of a project: the sets of rules it takes over, and the severity of single rules. -/
structure LintConfig where
  inherited : List String
  rules : List (String × String)
  extra : List (String × Datum)
  deriving BEq, Repr

/-- The configuration of a project. -/
structure ProjectConfig where
  backends : List String
  sourceDir : Option String
  lint : LintConfig
  extra : List (String × Datum)
  deriving BEq, Repr

/-- The entries of a table of other names than the known ones. -/
def otherEntries (known : List String) (entries : List (Value × Datum)) :
    List (String × Datum) :=
  entries.filterMap fun entry =>
    match entry.1 with
    | .text name => if known.contains name then none else some (name, entry.2)
    | _ => none

namespace LintConfig

def standard : LintConfig := ⟨[], [], []⟩

/-- Whether a check is switched off. -/
def isDisabled (c : LintConfig) (id : String) : Bool := c.rules.lookup id == some "off"

/-- The part about checks that an entry spells. -/
def ofDatum (d : Datum) : Checked LintConfig :=
  match d with
  | .table entries =>
    let inherited := Checked.entry entries "extends" [] Checked.texts
    let rules := Checked.entry entries "rules" [] Checked.textTable
    (Checked.and inherited rules).map fun (inherited, rules) =>
      ⟨inherited, rules, otherEntries ["extends", "rules"] entries⟩
  | _ => .refuse d "Input should be a valid dictionary or instance of LintConfig"

end LintConfig

namespace ProjectConfig

def standard : ProjectConfig := ⟨[], none, .standard, []⟩

/-- The directory of the sources, which may be null. -/
def sourceDirOf (d : Datum) : Checked (Option String) :=
  if d.isNull then .ok none else some <$> Checked.text d

/-- The configuration that a table spells. -/
def ofTable (entries : List (Value × Datum)) : Checked ProjectConfig :=
  let backends := Checked.entry entries "backends" [] Checked.texts
  let sourceDir := Checked.entry entries "source_dir" none sourceDirOf
  let lint := Checked.entry entries "lint" .standard LintConfig.ofDatum
  (Checked.and backends (Checked.and sourceDir lint)).map fun (backends, sourceDir, lint) =>
    ⟨backends, sourceDir, lint, otherEntries ["backends", "source_dir", "lint"] entries⟩

end ProjectConfig
end Infra
