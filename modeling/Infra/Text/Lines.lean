/-!
# Line ends

A text that is read from a file has one kind of line end: a carriage return, alone or before a line
feed, is read as a line feed.

* `unifyLines` : the characters of a text as they are read.
-/

namespace Infra.Text

/-- The characters of a text with every line end as a line feed. -/
def unifyLines : List Char → List Char
  | [] => []
  | '\r' :: '\n' :: rest => '\n' :: unifyLines rest
  | '\r' :: rest => '\n' :: unifyLines rest
  | c :: rest => c :: unifyLines rest

/-- The text of a file as it is read. -/
def asRead (text : String) : String := String.ofList (unifyLines text.toList)

/-- A text without carriage returns is read as it is. -/
theorem unifyLines_of_not_mem {cs : List Char} (h : '\r' ∉ cs) : unifyLines cs = cs := by
  fun_induction unifyLines cs <;> simp_all

end Infra.Text
