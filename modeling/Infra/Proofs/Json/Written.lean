import Infra.Json.Writer
import Infra.Proofs.Except

/-!
# The characters of a written document

* `Json.charsAt` : the characters of a tree that is written with indentation, part by part;
* `Json.toList_writeAt` : they are those of its written form;
* `Json.document_eq_ok_iff` : so they decide what the document is.
-/

namespace Infra.Json

/-- A line break and the indentation of a depth. -/
def breakChars (depth : Nat) : List Char := '\n' :: List.replicate (2 * depth) ' '

/-- The characters of items between brackets, each item on a line of its own. -/
def encloseChars (opening closing : Char) (depth : Nat) (items : List (List Char)) : List Char :=
  if items.isEmpty then [opening, closing]
  else opening :: breakChars (depth + 1) ++
    List.intercalate (',' :: breakChars (depth + 1)) items ++ breakChars depth ++ [closing]

/-- The characters of a scalar. -/
def scalarChars : Value → Except Fault (List Char)
  | .text s => .ok (stringChars s.toList)
  | v => String.toList <$> scalarText v

mutual

/-- The characters of a tree at a depth. -/
def charsAt (depth : Nat) : Datum → Except Fault (List Char)
  | .leaf v => scalarChars v
  | .list items => encloseChars '[' ']' depth <$> charsOfItems (depth + 1) items
  | .table entries => encloseChars '\x7b' '\x7d' depth <$> charsOfEntries (depth + 1) entries

/-- The characters of items. -/
def charsOfItems (depth : Nat) : List Datum → Except Fault (List (List Char))
  | [] => .ok []
  | item :: rest => do
    let chars ← charsAt depth item
    .ok (chars :: (← charsOfItems depth rest))

/-- The characters of entries. -/
def charsOfEntries (depth : Nat) : List (Value × Datum) → Except Fault (List (List Char))
  | [] => .ok []
  | (key, value) :: rest => do
    let name ← keyText key
    let chars ← charsAt depth value
    .ok ((stringChars name.toList ++ ':' :: ' ' :: chars) :: (← charsOfEntries depth rest))

end

theorem toList_lineBreak (depth : Nat) : (lineBreak depth).toList = breakChars depth := by
  simp [lineBreak, breakChars]

theorem toList_quote (s : String) : (quote s).toList = stringChars s.toList :=
  String.toList_ofList

theorem toList_scalarText (v : Value) : String.toList <$> scalarText v = scalarChars v := by
  cases v with
  | text s => exact congrArg Except.ok (toList_quote s)
  | _ => rfl

theorem toList_enclose {opening closing : String} {first last : Char}
    (opens : opening.toList = [first]) (closes : closing.toList = [last]) (depth : Nat)
    (items : List String) :
    (Layout.indented.enclose opening closing depth items).toList =
      encloseChars first last depth (items.map String.toList) := by
  unfold Layout.enclose encloseChars
  rw [List.isEmpty_map]
  split
  · simp [opens, closes]
  · simp [Layout.indented, toList_lineBreak, opens, closes]

mutual

/-- The written form of a tree has these characters. -/
theorem toList_writeAt (depth : Nat) :
    ∀ d : Datum, String.toList <$> writeAt .indented depth d = charsAt depth d
  | .leaf v => toList_scalarText v
  | .list items => by
    rw [writeAt, charsAt, ← toList_writeItems (depth + 1) items]
    cases writeItems .indented (depth + 1) items with
    | error fault => rfl
    | ok texts =>
      have opens : "[".toList = ['['] := String.toList_ofList
      have closes : "]".toList = [']'] := String.toList_ofList
      exact congrArg Except.ok (toList_enclose opens closes depth texts)
  | .table entries => by
    rw [writeAt, charsAt, ← toList_writeEntries (depth + 1) entries]
    cases writeEntries .indented (depth + 1) entries with
    | error fault => rfl
    | ok texts =>
      have opens : "\x7b".toList = ['\x7b'] := String.toList_ofList
      have closes : "\x7d".toList = ['\x7d'] := String.toList_ofList
      exact congrArg Except.ok (toList_enclose opens closes depth texts)

theorem toList_writeItems (depth : Nat) : ∀ items : List Datum,
    List.map String.toList <$> writeItems .indented depth items = charsOfItems depth items
  | [] => rfl
  | item :: rest => by
    rw [writeItems, charsOfItems, ← toList_writeAt depth item, ← toList_writeItems depth rest]
    cases writeAt .indented depth item with
    | error fault => rfl
    | ok text =>
      cases writeItems .indented depth rest with
      | error fault => rfl
      | ok texts => rfl

theorem toList_writeEntries (depth : Nat) : ∀ entries : List (Value × Datum),
    List.map String.toList <$> writeEntries .indented depth entries = charsOfEntries depth entries
  | [] => rfl
  | (key, value) :: rest => by
    rw [writeEntries, charsOfEntries, ← toList_writeAt depth value,
      ← toList_writeEntries depth rest]
    cases keyText key with
    | error fault => rfl
    | ok name =>
      cases writeAt .indented depth value with
      | error fault => rfl
      | ok text =>
        cases writeEntries .indented depth rest with
        | error fault => rfl
        | ok texts =>
          have head : (quote name ++ ": " ++ text).toList =
              stringChars name.toList ++ ':' :: ' ' :: text.toList := by
            simp [toList_quote]
          exact congrArg (fun chars => Except.ok (chars :: texts.map String.toList)) head

end

/-- The document of a tree is the text of its characters. -/
theorem document_eq_ok_iff {d : Datum} {text : String} :
    document d = .ok text ↔ charsAt 0 d = .ok text.toList := by
  rw [document, ← toList_writeAt, map_eq_ok_iff]
  constructor
  · exact fun written => ⟨text, written, rfl⟩
  · rintro ⟨other, written, same⟩
    rwa [← String.toList_inj.mp same]

end Infra.Json
