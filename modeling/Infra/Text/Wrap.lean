import Infra.Text.Blank

/-!
# Wrapping

A line that is too wide is broken before the words that no longer fit. A word that is wider than a
line is broken inside, and the blanks at the end of a line are left out.

* `words` : the words of a text, each with the blanks after it;
* `wrap` : the lines of a text.
-/

namespace Infra.Text

/-- Runs of word characters and of blanks in turn, each word with the blanks after it. -/
def joinRuns : List (List Char) → List (List Char)
  | word :: blanks :: rest => (word ++ blanks) :: joinRuns rest
  | runs => runs

/-- The words of a text, each with the blanks after it; blanks before the first belong to it. -/
def words (cs : List Char) : List (List Char) :=
  let start := cs.takeWhile isBlank
  match joinRuns ((cs.dropWhile isBlank).splitBy fun a b => isBlank a == isBlank b) with
  | [] => if start.isEmpty then [] else [start]
  | first :: rest => (start ++ first) :: rest

/-- The lines that are full, and the one that words are still added to. -/
structure Filling where
  full : List (List Char)
  line : List Char

/-- A word cut into pieces of a width. -/
def chop (width : Nat) : Nat → List Char → List (List Char)
  | 0, cs => [cs]
  | n + 1, cs => if cs.length ≤ width then [cs] else cs.take width :: chop width n (cs.drop width)

/-- Adds a word. -/
def Filling.add (width : Nat) (f : Filling) (word : List Char) : Filling :=
  let size := (trimEnd word).length
  if f.line.length + size ≤ width then { f with line := f.line ++ word }
  else
    let full := if f.line.isEmpty then f.full else f.full ++ [f.line]
    if width < size then
      let pieces := chop width word.length word
      ⟨full ++ pieces.dropLast, pieces.getLastD []⟩
    else ⟨full, word⟩

/-- The lines of a text of one line. -/
def wrapLine (width : Nat) (cs : List Char) : List (List Char) :=
  let f := (words cs).foldl (Filling.add width) ⟨[], []⟩
  (f.full ++ [f.line]).map trimEnd

/-- The lines of a text at most as wide. -/
def wrap (width : Nat) (text : String) : List String :=
  (text.splitOn "\n").flatMap fun line => (wrapLine width line.toList).map String.ofList

end Infra.Text
