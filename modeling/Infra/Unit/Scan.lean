import Infra.FileTree
import Infra.Log.Event
import Infra.Settings.Basic

/-!
# Finding source units

The units of a project are the files of the source suffix below a directory, in order of place.
Test units and directories that are excluded or hidden are left out. A directory that holds the
boundary marker is a source root: the first one met is scanned, the directory itself if it holds
the marker, and every later one is a project of its own.

* `SourceUnit.isScanned`, `SourceUnit.isUnitFile` : what names decide;
* `SourceUnit.Scan` : the state of a scan; `SourceUnit.scanEntries` : the scan of a directory;
* `SourceUnit.find` : the units below a directory, none if it cannot be read.
-/

namespace Infra.SourceUnit

/-- The logger of this part. -/
def scanLogger : String := "tessera.discovery.files"

/-- Whether directories of that name are scanned. -/
def isScanned (s : Settings) (name : String) : Bool :=
  !s.excludedDirs.contains name && !name.startsWith "."

/-- Whether files of that name are units. -/
def isUnitFile (s : Settings) (name : String) : Bool :=
  name.endsWith s.sourceSuffix && !isTest s.testPatterns name

/-- The units found so far, in order, and whether a source root has been met. -/
structure Scan where
  units : List Path
  rooted : Bool
  deriving DecidableEq, Repr

variable {α : Type}

/-- Whether a directory holds the boundary marker. -/
def holdsMarker (s : Settings) (t : FileTree α) (directory : Path) : Bool :=
  t.isFile (directory.join (.ofString s.boundaryMarker))

/-- Notes a file, if it is a unit. -/
def Scan.note (scan : Scan) (s : Settings) (path : Path) (name : String) : Scan :=
  if isUnitFile s name then { scan with units := scan.units ++ [path] } else scan

mutual

/-- Scans what stands in a directory under a name. -/
def scanEntry (s : Settings) (whole : FileTree α) (directory : Path) (name : String) :
    FileTree α → Scan → Logged Scan
  | .file _, scan => pure (scan.note s (directory.child name) name)
  | .directory entries, scan =>
    let path := directory.child name
    if !isScanned s name then pure scan
    else if holdsMarker s whole path then
      if scan.rooted then do
        Logged.tell ⟨.debug, scanLogger, "child_project_skipped",
          [("directory", .text path.toString)]⟩
        pure scan
      else scanEntries s whole path entries { scan with rooted := true }
    else scanEntries s whole path entries scan

/-- Scans the entries of a directory one after the other. -/
def scanEntries (s : Settings) (whole : FileTree α) (directory : Path) :
    List (String × FileTree α) → Scan → Logged Scan
  | [], scan => pure scan
  | (name, t) :: rest, scan => do
    let scan ← scanEntry s whole directory name t scan
    scanEntries s whole directory rest scan

end

/-- Why a directory cannot be read. -/
def unreadable (t : FileTree α) (root : Path) : Fault :=
  match t.find? root with
  | some _ => .notDirectory root.toString
  | none => .noFile root.toString

/-- The units below a directory, in order of place. -/
def find (s : Settings) (t : FileTree α) (root : Path) : Logged (List Path) := do
  let scan : Scan := ⟨[], holdsMarker s t root⟩
  let scan ← match t.find? root with
    | some (.directory entries) => scanEntries s t root entries scan
    | _ => do
      Logged.tell ⟨.debug, scanLogger, "directory_skipped",
        [("directory", .text root.toString), ("reason", .text (unreadable t root).wording)]⟩
      pure scan
  Logged.tell ⟨.debug, scanLogger, "source_units_found",
    [("root", .text root.toString), ("count", .int scan.units.length)]⟩
  pure scan.units

end Infra.SourceUnit
