import Infra.Text.Upper

/-!
# Words of a key

Keys are spelled with underscores, hyphens or capitals. The rendered spelling joins the words of a
key, each with its first character in upper case.

* `splitWords` : the words between separators, none of them empty;
* `capitalize` : a word with its first character in upper case;
* `pascalCase` : the rendered spelling of a key.
-/

namespace Infra.Text

/-- Whether the character parts two words of a key. -/
def isSeparator (c : Char) : Bool := c == '_' || c == '-'

/-- A word with its first character in upper case. -/
def capitalize : List Char → List Char
  | [] => []
  | c :: rest => upperChar c ++ rest

/-- The pieces of a text between separators, empty ones included. -/
def splitPieces : List Char → List (List Char)
  | [] => [[]]
  | c :: rest =>
    if isSeparator c then [] :: splitPieces rest
    else
      match splitPieces rest with
      | [] => [[c]]
      | piece :: pieces => (c :: piece) :: pieces

/-- The non-empty pieces of a text between separators. -/
def splitWords (cs : List Char) : List (List Char) :=
  (splitPieces cs).filter (!·.isEmpty)

/-- The rendered spelling of a key, on characters. -/
def pascalChars (cs : List Char) : List Char :=
  if cs.any isSeparator then (splitWords cs).flatMap capitalize else capitalize cs

/-- The rendered spelling of a key: `bucket_name`, `bucket-name`, `bucketName` and `BucketName` are
all written `BucketName`. -/
def pascalCase (key : String) : String := String.ofList (pascalChars key.toList)

end Infra.Text
