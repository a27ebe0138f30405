import Infra.Unit.Module

/-!
# Bundles

A bundle is a document that holds a tree of files: the paths of directories under `dirs`, and under
`files` the path of each file with its content. The content is a text, a table with the bytes in
hexadecimal digits, or the list of the statements of a unit.

* `Bundle.bytes`, `Bundle.file` : the content of a file;
* `Bundle.tree` : the tree of a bundle below a directory.
-/

namespace Infra.Bundle

open SourceUnit (ProjectFile Statement)

/-- The bytes that a content spells. -/
def bytes (d : Datum) : ByteArray :=
  match d with
  | .leaf (.text text) => text.toUTF8
  | _ => ⟨(Expr.bytesOfHex (d.field "hex").textD.toList).toArray⟩

/-- The file that a content spells. -/
def file (d : Datum) : ProjectFile :=
  match d with
  | .list statements => .unit (statements.map Statement.ofDatum)
  | _ => .bytes (bytes d)

/-- The tree of a bundle below a directory, which exists even if the bundle is empty. -/
def tree (directory : String) (d : Datum) : FileTree ProjectFile :=
  let inside (path : String) : String := directory ++ "/" ++ path
  .ofFiles (directory :: (d.field "dirs").textList.map inside)
    ((d.field "files").pairs.map fun entry => (inside entry.1, file entry.2))

end Infra.Bundle
