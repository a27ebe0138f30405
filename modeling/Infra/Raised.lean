import Infra.Text.Quoted

/-!
# Errors raised by foreign code

An error that a source unit or a check raised on its own is known by the label of its kind and its
text. The label decides how a report files it.

* `Raised.message` : the text that a report shows; a missing key is shown quoted;
* `Raised.isInterrupt` : whether the error ends the process rather than the unit.
-/

namespace Infra

/-- An error of foreign code: the label of its kind and the text it was raised with. -/
structure Raised where
  label : String
  text : Option String
  deriving DecidableEq, Repr

namespace Raised

/-- The kinds of malformed units, whose reports name the missing text. -/
def malformedLabels : List String := ["SyntaxError", "IndentationError", "TabError"]

/-- The text that a report shows. -/
def message (r : Raised) : String :=
  match r.text with
  | none => if malformedLabels.contains r.label then "None" else ""
  | some text => if r.label == "KeyError" then Text.quoted text else text

/-- The kinds of failed imports and malformed units. -/
def loadLabels : List String :=
  ["ImportError", "ModuleNotFoundError"] ++ malformedLabels

/-- The kinds of unsuitable values. -/
def valueLabels : List String :=
  ["TypeError", "ValueError", "UnicodeError", "UnicodeDecodeError", "UnicodeEncodeError",
   "UnicodeTranslateError", "JSONDecodeError", "TOMLDecodeError", "UnsupportedOperation"]

/-- The kinds that end the process and that no report catches. -/
def interruptLabels : List String :=
  ["KeyboardInterrupt", "SystemExit", "GeneratorExit", "BaseException", "BaseExceptionGroup"]

/-- Whether the error ends the process rather than the unit that raised it. -/
def isInterrupt (r : Raised) : Bool := interruptLabels.contains r.label

end Raised
end Infra
