import Infra.Path

/-!
# Trees of files

A directory with its files and directories by name. The entries of a directory stand in order of
name, and every operation keeps them so; a place in the tree is the list of the names that lead to
it.

* `FileTree.at?`, `FileTree.put` : the tree at a place, and the tree with another one there;
* `FileTree.files` : all files with their places, in order of place;
* `FileTree.resolve` : the place of a path, whose double dots go up again;
* `FileTree.fileAt?`, `FileTree.makeDirectories`, `FileTree.write` : files and directories by path;
* `at?_put_self` : what was put at a place is there.
-/

namespace Infra

/-- A file with its content, or a directory with its entries by name. -/
inductive FileTree (α : Type)
  | file (content : α)
  | directory (entries : List (String × FileTree α))
  deriving Repr

namespace FileTree

variable {α : Type}

/-- The directory without entries. -/
def empty : FileTree α := directory []

instance : Inhabited (FileTree α) := ⟨empty⟩

/-- The entries of a directory; a file has none. -/
def entries : FileTree α → List (String × FileTree α)
  | file _ => []
  | directory entries => entries

def isDirectory : FileTree α → Bool
  | file _ => false
  | directory _ => true

/-- The tree at a place. -/
def at? : FileTree α → List String → Option (FileTree α)
  | t, [] => some t
  | t, name :: rest => (t.entries.lookup name).bind fun inner => inner.at? rest

/-- Sets an entry in order of name. -/
def insertEntry (name : String) (t : FileTree α) :
    List (String × FileTree α) → List (String × FileTree α)
  | [] => [(name, t)]
  | entry :: rest =>
    if entry.1 = name then (name, t) :: rest
    else if name < entry.1 then (name, t) :: entry :: rest
    else entry :: insertEntry name t rest

/-- The tree with another one at a place; the directories that lead there are made. -/
def put (t : FileTree α) : List String → FileTree α → FileTree α
  | [], new => new
  | name :: rest, new =>
    directory (insertEntry name (put ((t.entries.lookup name).getD empty) rest new) t.entries)

theorem lookup_insertEntry (name : String) (t : FileTree α) (entries : List (String × FileTree α)) :
    (insertEntry name t entries).lookup name = some t := by
  induction entries with
  | nil => simp [insertEntry]
  | cons entry rest ih =>
    obtain ⟨n, u⟩ := entry
    unfold insertEntry
    split
    · simp
    · split
      · simp
      · rename_i h _
        have : (name == n) = false := by simpa using fun e => h e.symm
        simp [List.lookup_cons, this, ih]

/-- What was put at a place is there. -/
@[simp] theorem at?_put_self (t : FileTree α) (place : List String) (new : FileTree α) :
    (t.put place new).at? place = some new := by
  induction place generalizing t with
  | nil => rfl
  | cons name rest ih => simp [put, at?, entries, lookup_insertEntry, ih]

mutual

/-- The files of a tree with their places below the given one, in order of place. -/
def filesBelow (place : List String) : FileTree α → List (List String × α)
  | file content => [(place, content)]
  | directory entries => filesOfEntries place entries

/-- The files of entries with their places below the given one. -/
def filesOfEntries (place : List String) : List (String × FileTree α) → List (List String × α)
  | [] => []
  | (name, t) :: rest => filesBelow (place ++ [name]) t ++ filesOfEntries place rest

end

/-- All files with their places, in order of place. -/
def files (t : FileTree α) : List (List String × α) := t.filesBelow []

mutual

/-- The tree with the content of each file changed. -/
def map {β : Type} (f : α → β) : FileTree α → FileTree β
  | file content => file (f content)
  | directory entries => directory (mapEntries f entries)

/-- The entries with the content of each file changed. -/
def mapEntries {β : Type} (f : α → β) : List (String × FileTree α) → List (String × FileTree β)
  | [] => []
  | (name, t) :: rest => (name, map f t) :: mapEntries f rest

end

mutual

/-- The number of files and directories in a tree, itself excepted. -/
def size : FileTree α → Nat
  | file _ => 0
  | directory entries => sizeOfEntries entries

/-- The number of files and directories in entries. -/
def sizeOfEntries : List (String × FileTree α) → Nat
  | [] => 0
  | (_, t) :: rest => size t + 1 + sizeOfEntries rest

end

/-! ## Paths -/

/-- One step from a directory at a place to another. -/
def step (t : FileTree α) (place : List String) (name : String) : Except Fault (List String) :=
  if name = ".." then .ok place.dropLast
  else
    let next := place ++ [name]
    match t.at? next with
    | some inner =>
      if inner.isDirectory then .ok next
      else .error (.notDirectory (String.intercalate "/" next))
    | none => .error (.noFile (String.intercalate "/" next))

/-- The place of a path. All but its last name lead through directories; the last may be missing.
A path from a root of its own lies outside the tree. -/
def resolve (t : FileTree α) (p : Path) : Except Fault (List String) := do
  if !p.root.isEmpty then throw (.noFile p.toString)
  let place ← p.names.dropLast.foldlM t.step []
  match p.names.getLast? with
  | none => pure place
  | some name => pure (if name = ".." then place.dropLast else place ++ [name])

/-- The tree that a path leads to. -/
def find? (t : FileTree α) (p : Path) : Option (FileTree α) :=
  match t.resolve p with
  | .ok place => t.at? place
  | .error _ => none

/-- The content of the file that a path leads to. -/
def fileAt? (t : FileTree α) (p : Path) : Option α :=
  match t.find? p with
  | some (file content) => some content
  | _ => none

def isFile (t : FileTree α) (p : Path) : Bool := (t.fileAt? p).isSome

/-- Makes the directories that the remaining names of a path lead through from a place. -/
def makeFrom (t : FileTree α) (place : List String) : List String → Except Fault (FileTree α)
  | [] => .ok t
  | name :: rest =>
    if name = ".." then makeFrom t place.dropLast rest
    else
      let next := place ++ [name]
      match t.at? next with
      | some inner =>
        if inner.isDirectory then makeFrom t next rest
        else if rest.isEmpty then .error (.alreadyExists (String.intercalate "/" next))
        else .error (.notDirectory (String.intercalate "/" next))
      | none => makeFrom (t.put next empty) next rest

/-- Makes the directory of a path and those that lead there, unless they exist. -/
def makeDirectories (t : FileTree α) (p : Path) : Except Fault (FileTree α) :=
  if p.root.isEmpty then makeFrom t [] p.names else .error (.noFile p.toString)

/-- Writes the file of a path, whose directory has to exist. -/
def write (t : FileTree α) (p : Path) (content : α) : Except Fault (FileTree α) := do
  let place ← t.resolve p
  match t.at? place with
  | some (directory _) => throw (.isDirectory p.toString)
  | _ => pure (t.put place (file content))

/-- The tree of the given directories and files, in the order in which they are made. -/
def ofFiles (directories : List String) (files : List (String × α)) : FileTree α :=
  let made := directories.foldl (fun (t : FileTree α) name =>
    let place := (Path.ofString name).names
    match t.at? place with
    | some _ => t
    | none => t.put place empty) empty
  files.foldl (fun t entry => t.put (Path.ofString entry.1).names (file entry.2)) made

end FileTree
end Infra
