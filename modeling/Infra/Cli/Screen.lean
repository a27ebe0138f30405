import Infra.Text.Wrap

/-!
# Output for a terminal

* `Cli.treeLines` : a tree of two levels below its title, with guides;
* `Cli.tableLines` : rows in a frame below a title.

A terminal has a fixed width (`Cli.width`), to which lines of text are wrapped.
-/

namespace Infra.Cli

/-- The columns of the terminal. -/
def width : Nat := 200

/-- A text as lines of the terminal. -/
def textLines (text : String) : List String := Text.wrap width text

/-! ## Trees -/

/-- The guides of a branch: what stands before its label and before what is below it. -/
def guides (last : Bool) : String × String :=
  if last then ("└── ", "    ") else ("├── ", "│   ")

/-- Lines under the guides of the branches they belong to. -/
def branches : List (String × List String) → List String
  | [] => []
  | (label, below) :: rest =>
    let (branch, space) := guides rest.isEmpty
    (branch ++ label) :: below.map (space ++ ·) ++ branches rest

/-- A tree with a title, its branches and their leaves. -/
def treeLines (title : String) (nodes : List (String × List String)) : List String :=
  title :: branches (nodes.map fun node => (node.1, branches (node.2.map fun leaf => (leaf, []))))

/-! ## Tables -/

/-- A text filled up with blanks. -/
def filled (size : Nat) (text : String) : String :=
  text ++ String.ofList (List.replicate (size - text.length) ' ')

/-- Repeats a character. -/
def repeated (size : Nat) (c : Char) : String := String.ofList (List.replicate size c)

/-- A line of a frame: its left end, what fills the columns, what parts them, and its right end. -/
def frameLine (left : String) (c : Char) (between right : String) (sizes : List Nat) : String :=
  left ++ String.intercalate between (sizes.map fun size => repeated (size + 2) c) ++ right

/-- The cells of a row between bars. -/
def rowLine (bar : String) (sizes : List Nat) (cells : List String) : String :=
  bar ++ String.intercalate bar ((sizes.zip cells).map fun (size, cell) =>
    " " ++ filled size cell ++ " ") ++ bar

/-- The width of each column. -/
def columnSizes (rows : List (List String)) : List Nat :=
  rows.foldl (fun sizes row =>
    let measured := row.map (·.length)
    if sizes.isEmpty then measured else (sizes.zip measured).map fun (a, b) => max a b) []

/-- Rows in a frame below a title and the names of the columns. -/
def tableLines (title : String) (columns : List String) (rows : List (List String)) :
    List String :=
  let sizes := columnSizes (columns :: rows)
  [title, frameLine "┏" '━' "┳" "┓" sizes, rowLine "┃" sizes columns,
    frameLine "┡" '━' "╇" "┩" sizes]
    ++ rows.map (rowLine "│" sizes)
    ++ [frameLine "└" '─' "┴" "┘" sizes]

end Infra.Cli
