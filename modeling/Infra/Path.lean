import Infra.Fault

/-!
# Paths

A path is a root, which is empty for a relative path, and the names below it. Reading a path drops
empty names and names that are a single dot; a name of two dots is kept until a path is resolved.

* `Path.ofString`, `Path.toString` : reading and writing; the empty path is written as a dot;
* `Path.suffix`, `Path.withoutSuffix` : the last dotted part of the last name;
* `Path.resolve` : the path with its double dots taken out;
* `Path.relativeTo?` : the names of a path below another.
-/

namespace Infra

/-- A root and the names below it. -/
structure Path where
  root : String
  names : List String
  deriving DecidableEq, Repr

namespace Path

/-- The pieces of a text between slashes. -/
def pieces : List Char → List (List Char)
  | [] => [[]]
  | c :: rest =>
    if c = '/' then [] :: pieces rest
    else
      match pieces rest with
      | [] => [[c]]
      | piece :: more => (c :: piece) :: more

/-- The root of a written path: a slash, or two where there are exactly two. -/
def rootOf : List Char → String
  | '/' :: '/' :: '/' :: _ => "/"
  | '/' :: '/' :: _ => "//"
  | '/' :: _ => "/"
  | _ => ""

/-- Reads a path. -/
def ofString (text : String) : Path where
  root := rootOf text.toList
  names := ((pieces text.toList).filter fun piece => !piece.isEmpty && piece != ['.']).map
    String.ofList

/-- Writes a path. -/
protected def toString (p : Path) : String :=
  if p.root.isEmpty && p.names.isEmpty then "." else p.root ++ String.intercalate "/" p.names

instance : ToString Path := ⟨Path.toString⟩

/-- The path of a name below another. -/
def child (p : Path) (name : String) : Path := { p with names := p.names ++ [name] }

/-- The path `q` as seen from `p`: an absolute path stands for itself. -/
def join (p q : Path) : Path :=
  if q.root.isEmpty then { p with names := p.names ++ q.names } else q

/-- The last name. -/
def name? (p : Path) : Option String := p.names.getLast?

/-- The path without its last name. -/
def parent (p : Path) : Path := { p with names := p.names.dropLast }

/-- A name cut before its last dot, unless the dot begins or ends it. -/
def cutSuffix (name : List Char) : List Char × List Char :=
  let tail := (name.reverse.takeWhile (· != '.')).reverse
  let stem := name.take (name.length - tail.length - 1)
  if tail.isEmpty || tail.length == name.length || stem.isEmpty then (name, [])
  else (stem, '.' :: tail)

/-- The last dotted part of the last name, with its dot. -/
def suffix (p : Path) : String :=
  match p.name? with
  | some name => String.ofList (cutSuffix name.toList).2
  | none => ""

/-- The names with the last dotted part of the last one dropped. -/
def withoutSuffix (names : List String) : List String :=
  match names.getLast? with
  | some name => names.dropLast ++ [String.ofList (cutSuffix name.toList).1]
  | none => []

/-- Takes the double dots out of the names below a root. -/
def resolveNames (names : List String) : List String :=
  names.foldl (fun kept name => if name = ".." then kept.dropLast else kept ++ [name]) []

/-- The path with its double dots taken out, and with a single slash as its root if it has one. -/
def resolve (p : Path) : Path := ⟨if p.root.isEmpty then "" else "/", resolveNames p.names⟩

/-- The names of `p` below `base`, if it lies there. -/
def relativeTo? (p base : Path) : Option (List String) :=
  if p.root = base.root ∧ base.names.isPrefixOf p.names then
    some (p.names.drop base.names.length)
  else none

end Path
end Infra
