/-!
# File name patterns

Patterns of whole file names: `*` stands for any run of characters, `?` for any one character and
`[…]` for one character of a class, which a leading `!` turns into its complement. A bracket that
is never closed stands for itself.

* `CharSet` : a class as single characters and ranges; a range that runs backwards is empty;
* `Glob.parse` : the items of a pattern;
* `Glob.matchItems`, `Glob.holds` : whether a name is an instance of the pattern.
-/

namespace Infra.Text

/-- A class of characters. -/
structure CharSet where
  complement : Bool
  singles : List Char
  ranges : List (Char × Char)
  deriving DecidableEq, Repr

/-- Whether the class holds the character. -/
def CharSet.contains (set : CharSet) (c : Char) : Bool :=
  let listed := set.singles.contains c || set.ranges.any fun r => r.1 ≤ c && c ≤ r.2
  listed != set.complement

namespace Glob

/-- One item of a pattern. -/
inductive Item
  | anyRun
  | anyChar
  | oneOf (set : CharSet)
  | exactly (c : Char)
  deriving DecidableEq, Repr

/-- Cuts the inside of a bracket at the hyphens that make a range: each piece after the first
begins with the upper end of the range that the piece before it began. `gap` counts the characters
that must still pass before a hyphen can make a range. -/
def cutRanges : Nat → List Char → List Char → List (List Char)
  | _, piece, [] => if piece.isEmpty then [] else [piece]
  | 0, piece, '-' :: rest =>
    if rest.isEmpty then [piece ++ ['-']] else piece :: cutRanges 2 [] rest
  | gap, piece, c :: rest => cutRanges (gap - 1) (piece ++ [c]) rest

/-- Joins the pieces of a bracket, last first: a range whose ends run backwards is dropped
together with its ends. -/
def joinPieces : List (List Char) → List (List Char)
  | [] => []
  | piece :: rest =>
    match joinPieces rest with
    | [] => [piece]
    | next :: others =>
      match piece.getLast?, next with
      | some low, high :: _ =>
        if high < low then (piece.dropLast ++ next.drop 1) :: others else piece :: next :: others
      | _, _ => piece :: next :: others

/-- The ranges between neighbouring pieces. -/
def rangesOf : List (List Char) → List (Char × Char)
  | piece :: next :: rest =>
    match piece.getLast?, next.head? with
    | some low, some high => (low, high) :: rangesOf (next :: rest)
    | _, _ => rangesOf (next :: rest)
  | _ => []

/-- The class that the inside of a bracket describes. -/
def classOf (inside : List Char) : CharSet :=
  let complement := inside.head? == some '!'
  let body := if complement then inside.drop 1 else inside
  let pieces := joinPieces (cutRanges 1 [] body)
  ⟨complement, pieces.flatten, rangesOf pieces⟩

/-- The inside of a bracket and what follows its end. The first character, or the first after a
leading `!`, never closes the bracket. -/
def closeBracket? (cs : List Char) : Option (List Char × List Char) :=
  let (mark, afterMark) := match cs with
    | '!' :: rest => (['!'], rest)
    | _ => ([], cs)
  let (first, afterFirst) := match afterMark with
    | ']' :: rest => ([']'], rest)
    | _ => ([], afterMark)
  match afterFirst.dropWhile (· != ']') with
  | [] => none
  | _ :: rest => some (mark ++ first ++ afterFirst.takeWhile (· != ']'), rest)

/-- What follows the first closing bracket is shorter than the text searched. -/
theorem length_of_dropWhile_eq_cons {p : Char → Bool} {cs rest : List Char} {c : Char}
    (h : cs.dropWhile p = c :: rest) : rest.length < cs.length := by
  have := (List.dropWhile_sublist p (l := cs)).length_le
  rw [h] at this
  exact this

/-- What follows a closed bracket is shorter than the bracket. -/
theorem length_closeBracket? {cs inside rest : List Char}
    (h : closeBracket? cs = some (inside, rest)) : rest.length < cs.length := by
  unfold closeBracket? at h
  split at h
  rename_i mark afterMark hmark
  split at h
  rename_i first afterFirst hfirst
  have markLe : afterMark.length ≤ cs.length := by
    split at hmark <;> simp_all
  have firstLe : afterFirst.length ≤ afterMark.length := by
    split at hfirst <;> simp_all
  split at h
  · cases h
  · rename_i hdrop
    obtain ⟨_, rfl⟩ := Prod.mk.inj (Option.some.inj h)
    have := length_of_dropWhile_eq_cons hdrop
    omega

/-- The items of a pattern. -/
def parse : List Char → List Item
  | [] => []
  | '*' :: rest => .anyRun :: parse rest
  | '?' :: rest => .anyChar :: parse rest
  | '[' :: rest =>
    match h : closeBracket? rest with
    | none => .exactly '[' :: parse rest
    | some (inside, after) =>
      have := length_closeBracket? h
      .oneOf (classOf inside) :: parse after
  | c :: rest => .exactly c :: parse rest
termination_by cs => cs.length
decreasing_by all_goals (simp only [List.length_cons]; omega)

/-- Whether one item stands for the character. -/
def Item.accepts : Item → Char → Bool
  | .anyRun, _ => false
  | .anyChar, _ => true
  | .oneOf set, c => set.contains c
  | .exactly d, c => c == d

/-- Whether the items stand for the whole name. -/
def matchItems : List Item → List Char → Bool
  | [], name => name.isEmpty
  | .anyRun :: items, [] => matchItems items []
  | .anyRun :: items, c :: name =>
    matchItems items (c :: name) || matchItems (.anyRun :: items) name
  | _ :: _, [] => false
  | item :: items, c :: name => item.accepts c && matchItems items name
termination_by items name => (items.length, name.length)

/-- Whether a name is an instance of the pattern. -/
def holds (pattern name : String) : Bool := matchItems (parse pattern.toList) name.toList

end Glob
end Infra.Text
