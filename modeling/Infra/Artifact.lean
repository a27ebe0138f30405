import Infra.Backend.Registry
import Infra.FileTree
import Infra.Json.Writer

/-!
# Artifacts

The documents of a build are written below an output directory, those of each backend into a
directory of its own, and a manifest beside the directories of the backends.

* `Artifact.documents` : where each document of a backend is written;
* `Artifact.write` : writes all documents and the manifest, and lists what was written.
-/

namespace Infra.Artifact

/-- The file name of the manifest. -/
def manifestFile : String := "manifest.json"

/-- A backend and the file name of its primary document. -/
abbrev Serializers := List (String × String)

/-- The file name of the primary document of a backend; the last serializer of the backend decides. -/
def primaryFile (serializers : Serializers) (backend : String) : String :=
  (serializers.reverse.lookup backend).getD SerializerClass.standardFile

/-- The directory of a backend. -/
def backendDirectory (directory : Path) (backend : String) : Path :=
  directory.join (.ofString backend)

/-- The path and the text of each document of a backend. A document without a name is the primary
one. -/
def documents (serializers : Serializers) (directory : Path) (backend : String)
    (rendered : Rendered) : List (Path × String) :=
  rendered.normalize.documents.map fun document =>
    let name := if document.1.isEmpty then primaryFile serializers backend else document.1
    ((backendDirectory directory backend).join (.ofString name), document.2)

/-- Writes files one after the other. -/
def writeAll (t : FileTree String) (files : List (Path × String)) :
    Except Fault (FileTree String) :=
  files.foldlM (fun t file => t.write file.1 file.2) t

/-- Writes the documents of one backend. -/
def writeBackend (serializers : Serializers) (directory : Path) (t : FileTree String)
    (output : String × Rendered) : Except Fault (FileTree String) := do
  let t ← t.makeDirectories (backendDirectory directory output.1)
  writeAll t (documents serializers directory output.1 output.2)

/-- Writes the documents of all backends and then the manifest; the paths are listed in the order
of writing. -/
def write (t : FileTree String) (outputs : Outputs) (serializers : Serializers) (manifest : Datum)
    (directory : Path) : Except Fault (FileTree String × List Path) := do
  let t ← outputs.foldlM (writeBackend serializers directory) t
  let t ← t.makeDirectories directory
  let path := directory.child manifestFile
  let t ← t.write path (← Json.document manifest)
  let written := outputs.flatMap fun output =>
    (documents serializers directory output.1 output.2).map (·.1)
  pure (t, written ++ [path])

end Infra.Artifact
