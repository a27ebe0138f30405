import Infra.Config.Basic
import Infra.FileTree
import Infra.Log.Event
import Infra.Text.Lines
import Infra.Toml.Reader

/-!
# Configuration files

The configuration of a project stands in a file of its directory, in TOML or else in JSON. A
project without such a file has the standard configuration.

* `ConfigFile.Form` : the two forms, in order of preference;
* `ConfigFile.Reading` : what reading a file depends on beside its bytes;
* `ConfigFile.parse`, `ConfigFile.check` : the document of a file, and its configuration;
* `ConfigFile.load` : the configuration of a project with the file it stands in.

A file that is no document, or a document of another form than expected, is an invalid
configuration. Bytes that are no text, integers beyond the readable size and parts that are nested
beyond the room for them are faults of their own.
-/

namespace Infra.ConfigFile

/-- The forms of a configuration file. -/
inductive Form
  | toml | json
  deriving DecidableEq, Repr

def Form.fileName : Form → String
  | .toml => "tessera.toml"
  | .json => "tessera.json"

/-- A configuration with the path of the file it stands in, if there is one. -/
structure Resolved where
  config : ProjectConfig
  path : Option Path
  deriving BEq, Repr

/-- What reading a file depends on beside its bytes. -/
structure Reading where
  /-- The room for the nested parts of a document. -/
  room : Room
  /-- What is said of a text that is no document in TOML. -/
  complaint : String → String

/-- The failure of a file that is no document. -/
def unparsable (path : Path) (form : Form) (complaint : String) : Fault :=
  .failed (.invalidConfig path.toString .null
    ("Cannot parse " ++ form.fileName ++ ": " ++ complaint))

/-- The document of a TOML file. -/
def parseToml (reading : Reading) (path : Path) (text : String) : Except Fault Datum :=
  match Toml.readWithin reading.room text with
  | .ok d => .ok d
  | .error .malformed => .error (unparsable path .toml (reading.complaint text))
  | .error (.value fault) => .error fault
  | .error .tooDeep => .error .tooDeep

/-- The document of a JSON file. -/
def parseJson (reading : Reading) (path : Path) (text : String) : Except Fault Datum :=
  match Json.readWithin reading.room text with
  | .ok d => .ok d
  | .error .tooDeep => .error .tooDeep
  | .error (.tooManyDigits count) =>
    .error (.badValue (Json.ReadFault.text [] (.tooManyDigits count)))
  | .error fault => .error (unparsable path .json (fault.text text.toList))

/-- The document of a file with the given bytes. -/
def parse (reading : Reading) (form : Form) (path : Path) (bytes : ByteArray) :
    Except Fault Datum :=
  match String.fromUTF8? bytes with
  | none => .error .notUtf8
  | some text =>
    match form with
    | .toml => parseToml reading path (Text.asRead text)
    | .json => parseJson reading path (Text.asRead text)

/-- The failure that the first of some findings is. -/
def invalid (form : Form) (findings : List Finding) : Fault :=
  let first := findings.headD ⟨[], .null, ""⟩
  let joined := String.intercalate "." first.place
  let key := if joined.isEmpty then form.fileName else joined
  .failed (.invalidConfig key first.value
    ("Invalid " ++ form.fileName ++ ": " ++ key ++ ": " ++ first.message))

/-- The configuration of a document. -/
def check (form : Form) (path : Path) (d : Datum) : Except Fault ProjectConfig :=
  match d with
  | .table entries => (ProjectConfig.ofTable entries).mapError (invalid form)
  | _ => .error (.failed (.invalidConfig path.toString d
      (form.fileName ++ " must contain a table/object")))

/-- The form, the path and the bytes of the file in a directory that counts. -/
def find? (t : FileTree ByteArray) (directory : Path) : Option (Form × Path × ByteArray) :=
  [Form.toml, .json].findSome? fun form =>
    let path := directory.child form.fileName
    (t.fileAt? path).map fun bytes => (form, path, bytes)

/-- The logger of this part. -/
def logger : String := "tessera.core.config"

/-- The configuration of the project in a directory. -/
def load (reading : Reading) (t : FileTree ByteArray) (directory : Path) :
    Logged (Except Fault Resolved) :=
  match find? t directory with
  | none => pure (.ok ⟨.standard, none⟩)
  | some (form, path, bytes) =>
    match parse reading form path bytes >>= check form path with
    | .error fault => pure (.error fault)
    | .ok config => do
      Logged.tell ⟨.debug, logger, "project_config_loaded",
        [("path", .text path.toString), ("backends", .texts config.backends)]⟩
      pure (.ok ⟨config, some path⟩)

end Infra.ConfigFile
