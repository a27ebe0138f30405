import Infra.Toml.Reader
import Infra.Proofs.Reading

/-!
# What reading TOML leaves

Each reader leaves an end of its characters. Two refusals are not about the form of the document:
that of a decimal integer with too many digits, which stand in it, and that for want of room, which
has openings for more calls than there is room for.

* `Toml.remains_readText?`, `Toml.remains_readKey?`, `Toml.remains_readMoment?` : texts, keys and
  dates;
* `Toml.Parted`, `Toml.leaves_readNumber?` : runs of digits, and numbers;
* `Toml.leaves_to`, `Toml.leaves_readStatement` : values and statements;
* `Toml.tooLong_of_read` : the documents that are refused for a value;
* `Toml.below_of_read` : the documents that are refused for want of room; `Toml.read_nested` : lists
  inside each other are among them.
-/

namespace Infra.Toml

open Decimal (isDigit)

variable {α β : Type} {rest : α → List Char} {rest' : β → List Char} {cs : List Char}

/-! ## Texts -/

theorem suffix_skipBlanks (cs : List Char) : skipBlanks cs <:+ cs := List.dropWhile_suffix _

theorem remains_skipLineEnd? (cs : List Char) : Remains id cs (skipLineEnd? cs) := by
  unfold skipLineEnd?
  have after_blanks := suffix_skipBlanks cs
  generalize skipBlanks cs = here at after_blanks
  split
  · exact .some (((List.dropWhile_suffix _).trans (List.suffix_cons _ _)).trans after_blanks)
  · exact .none

theorem remains_readBasic? (block : Bool) (cs : List Char) :
    Remains Prod.snd cs (readBasic? block cs) := by
  fun_induction readBasic? block cs
  -- in 6 and 7 an escape takes its digits away, in 8 a backslash the blanks up to the next line
  case case2 after => exact .some (List.suffix_append ['"', '"', '"'] after)
  case case3 ih => exact .mono (.map ih fun _ => rfl) (List.suffix_cons _ _)
  case case4 => exact .some (List.suffix_cons _ _)
  case case6 digits ih =>
    exact .after fun c => ih.mapFst
      ((List.drop_suffix _ _).trans (List.suffix_append ['\\', 'u'] _)) (c :: ·)
  case case7 digits ih =>
    exact .after fun c => ih.mapFst
      ((List.drop_suffix _ _).trans (List.suffix_append ['\\', 'U'] _)) (c :: ·)
  case case8 c more _ _ _ next skipped ih =>
    exact ih.mono ((remains_skipLineEnd? _ _ skipped).trans (List.suffix_cons _ _))
  case case10 c more _ _ _ ih =>
    exact .after fun e => ih.mapFst (List.suffix_append ['\\', c] _) (e :: ·)
  case case12 ih => exact .mono (.map ih fun _ => rfl) (List.suffix_cons _ _)
  all_goals exact .none

theorem remains_readLiteral? (cs : List Char) : Remains Prod.snd cs (readLiteral? cs) := by
  unfold readLiteral?
  have after_text := List.dropWhile_suffix (· != '\x27') (l := cs)
  dsimp only
  generalize cs.dropWhile (· != '\x27') = here at after_text
  split
  · split
    · exact .none
    · exact .some ((List.suffix_cons _ _).trans after_text)
  · exact .none

theorem remains_readLiteralBlock? (cs : List Char) :
    Remains Prod.snd cs (readLiteralBlock? cs) := by
  fun_induction readLiteralBlock? cs
  case case2 after => exact .some (List.suffix_append ['\x27', '\x27', '\x27'] after)
  case case4 ih => exact .mono (.map ih fun _ => rfl) (List.suffix_cons _ _)
  all_goals exact .none

theorem suffix_closeBlock (quote : Char) (text after : List Char) :
    (closeBlock quote text after).2 <:+ after := List.drop_suffix _ _

theorem suffix_openBlock (cs : List Char) : openBlock cs <:+ cs := by
  unfold openBlock
  split
  · exact List.suffix_cons _ _
  · exact List.suffix_rfl

theorem remains_block {quote : Char} {o : Option (List Char × List Char)}
    (h : Remains Prod.snd (openBlock cs) o) :
    Remains Prod.snd cs (o.map fun (text, after) => closeBlock quote text after) := by
  intro b read
  obtain ⟨⟨text, after⟩, here, rfl⟩ := Option.map_eq_some_iff.mp read
  exact ((suffix_closeBlock quote text after).trans (h _ here)).trans (suffix_openBlock cs)

theorem remains_readText? {text : Option (List Char × List Char)}
    (h : readText? cs = some text) : Remains Prod.snd cs text := by
  unfold readText? at h
  split at h <;> cases h
  · rename_i rest
    exact (remains_block (remains_readBasic? _ _)).mono (List.suffix_append ['"', '"', '"'] rest)
  · exact (remains_readBasic? _ _).mono (List.suffix_cons _ _)
  · rename_i rest
    exact (remains_block (remains_readLiteralBlock? _)).mono
      (List.suffix_append ['\x27', '\x27', '\x27'] rest)
  · exact (remains_readLiteral? _).mono (List.suffix_cons _ _)

/-! ## Keys -/

theorem remains_readKeyPart? (cs : List Char) : Remains Prod.snd cs (readKeyPart? cs) := by
  unfold readKeyPart?
  split
  · exact (remains_readBasic? _ _).mono (List.suffix_cons _ _)
  · exact (remains_readLiteral? _).mono (List.suffix_cons _ _)
  · exact Remains.ite .none (.some (List.dropWhile_suffix _))

theorem remains_readKeyTo? (parts : Nat) (cs : List Char) :
    Remains Prod.snd cs (readKeyTo? parts cs) := by
  induction parts generalizing cs with
  | zero => exact .none
  | succ parts ih =>
    unfold readKeyTo?
    refine (remains_readKeyPart? cs).bind ?_
    rintro ⟨part, after⟩
    refine Remains.mono ?_ (suffix_skipBlanks after)
    dsimp only
    generalize skipBlanks after = here
    split
    · rename_i rest
      exact (ih _).mapFst ((suffix_skipBlanks rest).trans (List.suffix_cons _ _)) (_ :: ·)
    · exact .some List.suffix_rfl

theorem remains_readKey? (cs : List Char) : Remains Prod.snd cs (readKey? cs) :=
  remains_readKeyTo? _ _

/-! ## Numbers -/

/-- The digits are those of a run, which underscores may part, before the rest. -/
def Parted (p : Char → Bool) (cs digits after : List Char) : Prop :=
  ∃ run, cs = run ++ after ∧ (∀ c ∈ run, p c = true ∨ c = '_') ∧ run.filter p = digits

namespace Parted

variable {p : Char → Bool} {digits after : List Char}

theorem nil : Parted p cs [] cs := ⟨[], rfl, nofun, rfl⟩

theorem cons {c : Char} (digit : p c = true) (h : Parted p cs digits after) :
    Parted p (c :: cs) (c :: digits) after := by
  obtain ⟨run, rfl, marks, rfl⟩ := h
  refine ⟨c :: run, rfl, ?_, List.filter_cons_of_pos digit⟩
  rintro d (_ | ⟨_, mem⟩)
  exacts [.inl digit, marks d mem]

theorem underscore (mark : p '_' = false) (h : Parted p cs digits after) :
    Parted p ('_' :: cs) digits after := by
  obtain ⟨run, rfl, marks, rfl⟩ := h
  refine ⟨'_' :: run, rfl, ?_, List.filter_cons_of_neg (by simp [mark])⟩
  rintro d (_ | ⟨_, mem⟩)
  exacts [.inr rfl, marks d mem]

theorem suffix (h : Parted p cs digits after) : after <:+ cs := by
  obtain ⟨run, rfl, -, -⟩ := h
  exact List.suffix_append run after

theorem hasDigits {ds : List Char} (h : Parted isDigit cs digits after) (le : cs <:+ ds) :
    HasDigits digits.length ds := by
  obtain ⟨run, rfl, marks, rfl⟩ := h
  exact ⟨run, (List.prefix_append run after).isInfix.trans le.isInfix, marks, rfl⟩

end Parted

section Digits

variable {p : Char → Bool} (mark : p '_' = false)

include mark

theorem parted_moreDigits (cs : List Char) :
    Parted p cs (moreDigits p cs).1 (moreDigits p cs).2 := by
  -- an underscore is part of the run only where a digit follows it, so both are read in one step
  fun_induction moreDigits p cs with
  | case1 c rest digit digits after more ih =>
    rw [more] at ih
    exact (ih.cons digit).underscore mark
  | case3 c rest _ digit digits after more ih =>
    rw [more] at ih
    exact ih.cons digit
  | case2 | case4 | case5 => exact .nil

theorem parted_readDigits? {digits after : List Char}
    (h : readDigits? p cs = some (digits, after)) : Parted p cs digits after := by
  unfold readDigits? at h
  split at h
  · split at h
    · rename_i c rest digit
      cases h
      exact (parted_moreDigits mark rest).cons digit
    · cases h
  · cases h

theorem remains_readDigits? (cs : List Char) : Remains Prod.snd cs (readDigits? p cs) :=
  fun _ read => (parted_readDigits? mark read).suffix

end Digits

theorem isDigit_underscore : isDigit '_' = false := by decide

theorem isDigitOf_underscore (base : Nat) : isDigitOf base '_' = false := by rfl

theorem remains_readMarked? (cs : List Char) : Remains Prod.snd cs (readMarked? cs) := by
  unfold readMarked?
  split
  · rename_i mark rest
    exact .after fun base => (remains_readDigits? (isDigitOf_underscore base) rest).mapFst
      (List.suffix_append ['0', mark] rest) (natOfBase base)
  · exact .none

theorem parted_readWhole? {digits after : List Char}
    (h : readWhole? cs = some (digits, after)) : Parted isDigit cs digits after := by
  unfold readWhole? at h
  split at h
  · cases h
    exact .cons (by decide) .nil
  · exact parted_readDigits? isDigit_underscore h

theorem suffix_readFraction (cs : List Char) : (readFraction cs).2 <:+ cs := by
  unfold readFraction
  split
  · exact ((remains_readDigits? isDigit_underscore _).mono (List.suffix_cons _ _)).getD
      List.suffix_rfl
  · exact List.suffix_rfl

theorem suffix_readExponent (cs : List Char) : (readExponent cs).2 <:+ cs := by
  unfold readExponent
  split
  · rename_i mark rest
    split
    · split
      rename_i sign digits signed
      have after_sign : digits <:+ rest := by
        split at signed <;> cases signed
        exacts [List.suffix_cons _ _, List.suffix_cons _ _, List.suffix_rfl]
      split
      · rename_i found
        exact ((remains_readDigits? isDigit_underscore _ _ found).trans after_sign).trans
          (List.suffix_cons _ _)
      · exact List.suffix_rfl
    · exact List.suffix_rfl
  · exact List.suffix_rfl

theorem suffix_readSign (cs : List Char) : (readSign cs).2 <:+ cs := by
  unfold readSign
  split
  · exact List.suffix_cons _ _
  · exact List.suffix_cons _ _
  · exact List.suffix_rfl

theorem remains_readSpecial? (cs : List Char) : Remains Prod.snd cs (readSpecial? cs) := by
  unfold readSpecial?
  have after_sign := suffix_readSign cs
  exact .ite (.some ((List.drop_suffix _ _).trans after_sign))
    (.ite (.some ((List.drop_suffix _ _).trans after_sign)) .none)

/-- The fault of a decimal integer with too many digits, which stand in the text. -/
def TooLong (fault : Fault) (cs : List Char) : Prop :=
  ∃ count, fault = .badValue (Json.ReadFault.text [] (.tooManyDigits count)) ∧
    digitLimit < count ∧ HasDigits count cs

theorem TooLong.mono {fault : Fault} {cs ds : List Char} (h : TooLong fault cs)
    (le : cs <:+ ds) : TooLong fault ds := by
  obtain ⟨count, rfl, long, digits⟩ := h
  exact ⟨count, rfl, long, digits.mono le⟩

/-- A refusal of a number is founded on its digits. -/
def numberGrounds : Grounds Fault := ⟨TooLong, TooLong.mono⟩

theorem leaves_readDecimal? {r : Except Fault (Datum × List Char)}
    (h : readDecimal? cs = some r) : Leaves numberGrounds Prod.snd cs r := by
  unfold readDecimal? at h
  have after_sign := suffix_readSign cs
  simp only [Option.bind_eq_bind, Option.bind_eq_some_iff] at h
  obtain ⟨⟨whole, rest⟩, here, h⟩ := h
  have digits := parted_readWhole? here
  have after_whole := digits.suffix.trans after_sign
  have after_fraction := (suffix_readFraction rest).trans after_whole
  have after_exponent := (suffix_readExponent (readFraction rest).2).trans after_fraction
  simp only at h
  split at h
  · split at h
    · rename_i long
      cases h
      exact .error ⟨whole.length, rfl, long, digits.hasDigits after_sign⟩
    · cases h
      exact .ok after_exponent
  · cases h
    exact .ok after_exponent

theorem leaves_readNumber? {r : Except Fault (Datum × List Char)}
    (h : readNumber? cs = some r) : Leaves numberGrounds Prod.snd cs r := by
  unfold readNumber? at h
  split at h
  · rename_i marked
    cases h
    exact .ok (remains_readMarked? cs _ marked)
  · cases decimal : readDecimal? cs with
    | some found =>
      rw [decimal] at h
      cases h
      exact leaves_readDecimal? decimal
    | none =>
      rw [decimal] at h
      obtain ⟨⟨x, rest⟩, special, rfl⟩ := Option.map_eq_some_iff.mp h
      exact .ok (remains_readSpecial? cs _ special)

/-! ## Dates and times -/

theorem remains_readField? (count low high : Nat) (cs : List Char) :
    Remains Prod.snd cs (readField? count low high cs) :=
  .ite (.some (List.drop_suffix _ _)) .none

theorem remains_readMark? (mark : Char) (cs : List Char) : Remains id cs (readMark? mark cs) := by
  unfold readMark?
  split
  · exact .ite (.some (List.suffix_cons _ _)) .none
  · exact .none

theorem suffix_readMicroseconds (cs : List Char) : (readMicroseconds cs).2 <:+ cs := by
  unfold readMicroseconds
  split
  · dsimp only
    split
    · exact List.suffix_rfl
    · exact (List.dropWhile_suffix _).trans (List.suffix_cons _ _)
  · exact List.suffix_rfl

theorem remains_readTime? (cs : List Char) : Remains Prod.snd cs (readTime? cs) := by
  unfold readTime?
  refine (remains_readField? _ _ _ cs).bind fun (hour, cs) => ?_
  refine (remains_readMark? ':' cs).bind fun cs => ?_
  refine (remains_readField? _ _ _ cs).bind fun (minute, cs) => ?_
  refine (remains_readMark? ':' cs).bind fun cs => ?_
  refine (remains_readField? _ _ _ cs).bind fun (second, cs) => ?_
  exact .some (suffix_readMicroseconds cs)

theorem remains_readDate? (cs : List Char) : Remains Prod.snd cs (readDate? cs) := by
  unfold readDate?
  refine (remains_readField? _ _ _ cs).bind fun (year, cs) => ?_
  refine (remains_readMark? '-' cs).bind fun cs => ?_
  refine (remains_readField? _ _ _ cs).bind fun (month, cs) => ?_
  refine (remains_readMark? '-' cs).bind fun cs => ?_
  refine (remains_readField? _ _ _ cs).bind fun (day, cs) => ?_
  exact .some List.suffix_rfl

theorem remains_readSignedOffset? (cs : List Char) :
    Remains Prod.snd cs (readSignedOffset? cs) := by
  unfold readSignedOffset?
  split
  · rename_i sign cs
    refine Remains.mono ?_ (List.suffix_cons sign cs)
    dsimp only
    split
    · exact .none
    refine (remains_readField? _ _ _ cs).bind fun (hours, cs) => ?_
    refine (remains_readMark? ':' cs).bind fun cs => ?_
    refine (remains_readField? _ _ _ cs).bind fun (minutes, cs) => ?_
    exact .some List.suffix_rfl
  · exact .none

theorem suffix_readOffset (cs : List Char) : (readOffset cs).2 <:+ cs := by
  unfold readOffset
  split
  · exact List.suffix_cons _ _
  · exact List.suffix_cons _ _
  · exact (remains_readSignedOffset? cs).getD List.suffix_rfl

theorem suffix_readTimeAfterDate (cs : List Char) : (readTimeAfterDate cs).2 <:+ cs := by
  unfold readTimeAfterDate
  split
  · rename_i mark rest
    split
    · split
      · rename_i after time
        exact ((suffix_readOffset after).trans (remains_readTime? rest _ time)).trans
          (List.suffix_cons mark rest)
      · exact List.suffix_rfl
    · exact List.suffix_rfl
  · exact List.suffix_rfl

theorem remains_readMoment? {moment : Option (String × List Char)}
    (h : readMoment? cs = some moment) : Remains Prod.snd cs moment := by
  unfold readMoment? at h
  split at h
  · rename_i date rest here
    split at h <;> cases h
    · exact .some ((suffix_readTimeAfterDate rest).trans (remains_readDate? cs _ here))
    · exact .none
  · obtain ⟨time, here, rfl⟩ := Option.map_eq_some_iff.mp h
    exact .some (remains_readTime? cs _ here)

/-! ## Values -/

/-- A refusal for a value is founded on digits, and one for want of room on openings, each of which
takes three calls at most, beside some calls more; one for the form needs no ground. -/
def grounds (room : Room) (more : Nat) : Grounds ReadFault where
  Founded e cs :=
    match e with
    | .malformed => True
    | .value fault => TooLong fault cs
    | .tooDeep => room.Below (3 * openings cs + more)
  mono {e cs ds} founded le :=
    match e with
    | .malformed => trivial
    | .value _ => founded.mono le
    | .tooDeep => by
      have fewer := openings_le le
      exact Room.Below.mono founded (by omega)

variable {room : Room} {more : Nat}

/-- What is founded with less room, on an end of a text, is founded on the text. -/
theorem founded_inside {inner : Room} {others : Nat} {cs ds : List Char} (le : cs <:+ ds)
    (less : inner.Below (3 * openings cs + others) → room.Below (3 * openings ds + more))
    (e : ReadFault) (founded : (grounds inner others).Founded e cs) :
    (grounds room more).Founded e ds := by
  cases e with
  | malformed => trivial
  | value fault => exact founded.mono le
  | tooDeep => exact less founded

theorem leaves_found {o : Option α} (h : Remains rest cs o) :
    Leaves (grounds room more) rest cs (found o) := by
  cases o with
  | none => exact .error trivial
  | some a => exact .ok (h a rfl)

/-- What reads nothing may come first. -/
theorem leaves_after {o : Option α} {f : α → Except ReadFault β}
    (next : ∀ a, Leaves (grounds room more) rest' cs (f a)) :
    Leaves (grounds room more) rest' cs (found o >>= f) := by
  cases o with
  | none => exact .error trivial
  | some a => exact next a

theorem leaves_skipComment (cs : List Char) :
    Leaves (grounds room more) id cs (skipComment cs) := by
  unfold skipComment
  split
  · split
    · exact .error trivial
    · exact .ok ((List.dropWhile_suffix _).trans (List.suffix_cons _ _))
  · exact .ok List.suffix_rfl

theorem leaves_skipFiller (cs : List Char) : Leaves (grounds room more) id cs (skipFiller cs) := by
  fun_induction skipFiller cs with
  | case1 => exact .error trivial
  | case2 cs rest here _ ih =>
    have after_mark : rest <:+ cs :=
      (List.suffix_cons '#' rest).trans (here ▸ List.dropWhile_suffix _)
    exact ih.mono ((List.dropWhile_suffix _).trans after_mark)
  | case3 => exact .ok (List.dropWhile_suffix _)

theorem remains_readFlag? (cs : List Char) : Remains Prod.snd cs (readFlag? cs) :=
  .ite (.some (List.drop_suffix _ _)) (.ite (.some (List.drop_suffix _ _)) .none)

theorem leaves_readScalar (cs : List Char) :
    Leaves (grounds room more) Prod.snd cs (readScalar cs) := by
  unfold readScalar
  split
  · rename_i text
    exact (leaves_found (remains_readText? text)).mapFst List.suffix_rfl fun cs =>
      Datum.text (String.ofList cs)
  · split
    · rename_i flag
      exact .ok (remains_readFlag? cs _ flag)
    · split
      · rename_i moment
        exact (leaves_found (remains_readMoment? moment)).mapFst List.suffix_rfl fun text =>
          Datum.leaf (.moment text)
      · split
        · rename_i number
          exact .ok (leaves_readNumber? number).left
        · rename_i number
          exact .error (leaves_readNumber? number).founded
        · exact .error trivial

section Step

variable {depth : Nat}
  (values : ∀ room cs, Leaves (grounds room 1) Prod.snd cs (readValueTo room depth cs))
  (items : ∀ room cs, Leaves (grounds room 1) Prod.snd cs (readItemsTo room depth cs))
  (entries : ∀ room d cs, Leaves (grounds room 2) Prod.snd cs (readEntriesTo room depth d cs))

/-- A list or a table takes room for its own call within that of the value, and what is inside it
for as many calls as there are in the room that is left. -/
theorem leaves_opened {left : α → List Char} {c : Char} (opens : isOpening c = true)
    {rest : List Char} {f : Room → Except ReadFault α} (few : more ≤ 2)
    (next : ∀ inner, Leaves (grounds inner more) left rest (f inner)) {outer : Room}
    (around : ∀ k, outer.Below k → room.Below (k + 1)) :
    Leaves (grounds room 1) left (c :: rest) (outer.enter 1 .tooDeep >>= f) := by
  have more_openings := openings_cons opens rest
  refine .enter (fun short => (around 1 short).mono (by omega)) fun inner less => ?_
  refine (next inner).imp (List.suffix_cons c rest) fun e =>
    founded_inside (List.suffix_cons c rest) (fun below => ?_) e
  exact (around _ (less _ below)).mono (by omega)

include items entries in
theorem leaves_readValueTo_succ (room : Room) (cs : List Char) :
    Leaves (grounds room 1) Prod.snd cs (readValueTo room (depth + 1) cs) := by
  unfold readValueTo
  refine .enter (fun short => short.mono (by omega)) fun outer around => ?_
  split
  · rename_i rest
    refine leaves_opened rfl (show 1 ≤ 2 by omega) (fun inner => ?_) around
    refine (leaves_skipFiller rest).bind fun here => ?_
    split
    · exact .ok (List.suffix_cons _ _)
    · exact (items _ _).mapFst List.suffix_rfl Datum.list
  · rename_i rest
    refine leaves_opened rfl (show 2 ≤ 2 by omega) (fun inner => ?_) around
    have after_brace := suffix_skipBlanks rest
    generalize skipBlanks rest = here at after_brace ⊢
    split
    · exact .ok ((List.suffix_cons _ _).trans after_brace)
    · exact (entries _ _ _).mapFst after_brace fun d => Datum.table d.tables
  · exact leaves_readScalar cs

include values items in
theorem leaves_readItemsTo_succ (room : Room) (cs : List Char) :
    Leaves (grounds room 1) Prod.snd cs (readItemsTo room (depth + 1) cs) := by
  unfold readItemsTo
  refine (values room cs).bind fun (value, after) => ?_
  refine (leaves_skipFiller after).bind fun here => ?_
  split
  · exact .ok (List.suffix_cons _ _)
  · rename_i rest
    refine ((leaves_skipFiller rest).bind fun here => ?_).mono (List.suffix_cons _ _)
    split
    · exact .ok (List.suffix_cons _ _)
    · exact (items _ _).mapFst List.suffix_rfl (value :: ·)
  · exact .error trivial

include values entries in
theorem leaves_readEntriesTo_succ (room : Room) (d : Draft) (cs : List Char) :
    Leaves (grounds room 2) Prod.snd cs (readEntriesTo room (depth + 1) d cs) := by
  unfold readEntriesTo
  refine .enter (fun short => short.mono (by omega)) fun inner less => ?_
  refine (leaves_found (remains_readKey? cs)).bind fun (key, after) => ?_
  dsimp only
  split
  · rename_i rest
    have value : Leaves (grounds room 2) Prod.snd (skipBlanks rest)
        (readValueTo inner depth (skipBlanks rest)) :=
      (values _ _).imp List.suffix_rfl (founded_inside List.suffix_rfl (less _))
    refine (value.bind fun (value, after) => ?_).mono
      ((suffix_skipBlanks rest).trans (List.suffix_cons _ _))
    refine leaves_after fun d => Leaves.mono ?_ (suffix_skipBlanks after)
    generalize skipBlanks after = here
    split
    · exact .ok (List.suffix_cons _ _)
    · rename_i rest
      exact (entries _ _ _).mono ((suffix_skipBlanks rest).trans (List.suffix_cons _ _))
    · exact .error trivial
  · exact .error trivial

end Step

/-- Values, items and entries to some depth. -/
theorem leaves_to (depth : Nat) :
    (∀ room cs, Leaves (grounds room 1) Prod.snd cs (readValueTo room depth cs)) ∧
    (∀ room cs, Leaves (grounds room 1) Prod.snd cs (readItemsTo room depth cs)) ∧
    (∀ room d cs, Leaves (grounds room 2) Prod.snd cs (readEntriesTo room depth d cs)) := by
  induction depth with
  | zero =>
    exact ⟨fun _ _ => .error trivial, fun _ _ => .error trivial, fun _ _ _ => .error trivial⟩
  | succ depth ih =>
    obtain ⟨values, items, entries⟩ := ih
    exact ⟨leaves_readValueTo_succ items entries, leaves_readItemsTo_succ values items,
      leaves_readEntriesTo_succ values entries⟩

/-! ## Statements -/

theorem leaves_readEntry (room : Room) (d : Draft) (cs : List Char) :
    Leaves (grounds room 1) Prod.snd cs (readEntry room d cs) := by
  unfold readEntry
  refine (leaves_found (remains_readKey? cs)).bind fun (key, after) => ?_
  dsimp only
  split
  · rename_i rest
    refine (((leaves_to _).1 _ _).bind fun (value, after) => ?_).mono
      ((suffix_skipBlanks rest).trans (List.suffix_cons _ _))
    exact leaves_after fun d => .ok List.suffix_rfl
  · exact .error trivial

theorem leaves_readListHeading (d : Draft) (cs : List Char) :
    Leaves (grounds room more) Prod.snd cs (readListHeading d cs) := by
  unfold readListHeading
  refine ((leaves_found (remains_readKey? _)).bind fun (key, after) => ?_).mono
    (suffix_skipBlanks cs)
  refine leaves_after fun d => ?_
  dsimp only
  split
  · rename_i rest
    exact .ok (List.suffix_append [']', ']'] rest)
  · exact .error trivial

theorem leaves_readTableHeading (d : Draft) (cs : List Char) :
    Leaves (grounds room more) Prod.snd cs (readTableHeading d cs) := by
  unfold readTableHeading
  refine ((leaves_found (remains_readKey? _)).bind fun (key, after) => ?_).mono
    (suffix_skipBlanks cs)
  refine leaves_after fun d => ?_
  dsimp only
  split
  · exact .ok (List.suffix_cons _ _)
  · exact .error trivial

theorem leaves_readStatement (room : Room) (d : Draft) (cs : List Char) :
    Leaves (grounds room 1) Prod.snd cs (readStatement room d cs) := by
  unfold readStatement
  split
  · exact .ok List.suffix_rfl
  · exact .ok List.suffix_rfl
  · exact .ok List.suffix_rfl
  · rename_i rest
    exact (leaves_readListHeading d rest).mono (List.suffix_append ['[', '['] rest)
  · exact (leaves_readTableHeading d _).mono (List.suffix_cons _ _)
  · exact leaves_readEntry room d _

theorem leaves_readLines (room : Room) (lines : Nat) (d : Draft) (cs : List Char) :
    Leaves (grounds room 1) (fun _ => []) cs (readLines room lines d cs) := by
  induction lines generalizing d cs with
  | zero => exact .error trivial
  | succ lines ih =>
    unfold readLines
    refine ((leaves_readStatement room d _).bind fun (d, after) => ?_).mono (suffix_skipBlanks cs)
    refine ((leaves_skipComment _).bind fun here => ?_).mono (suffix_skipBlanks after)
    split
    · exact .ok List.nil_suffix
    · exact (ih _ _).mono (List.suffix_cons _ _)
    · exact .error trivial

theorem leaves_read (room : Room) (document : String) :
    Leaves (grounds room 1) (fun _ => []) document.toList (readWithin room document) :=
  (leaves_readLines room _ .empty document.toList).bind fun _ => .ok List.nil_suffix

/-- A document is refused for a value only where a decimal integer has too many digits. -/
theorem tooLong_of_read {document : String} {fault : Fault}
    (h : readWithin room document = .error (.value fault)) : TooLong fault document.toList := by
  have leaves := leaves_read room document
  rw [h] at leaves
  exact leaves.founded

/-- A document is refused for want of room only where its openings need more. -/
theorem below_of_read {document : String} (h : readWithin room document = .error .tooDeep) :
    room.Below (3 * openings document.toList + 1) := by
  have leaves := leaves_read room document
  rw [h] at leaves
  exact leaves.founded

/-! ## Nested lists -/

theorem skipFiller_bracket (more : List Char) : skipFiller ('[' :: more) = .ok ('[' :: more) := by
  rw [skipFiller]
  rfl

/-- Lists inside each other are refused where there is no room for them all. -/
theorem readValueTo_nested (n count depth : Nat) (short : n < 2 * count) (enough : n < depth)
    (rest : List Char) :
    readValueTo (some n) depth (List.replicate count '[' ++ rest) = .error .tooDeep := by
  induction count generalizing n depth with
  | zero => omega
  | succ count ih =>
    obtain ⟨depth, rfl⟩ : ∃ less, depth = less + 1 := Nat.exists_eq_succ_of_ne_zero (by omega)
    rw [List.replicate_succ, List.cons_append]
    match n with
    | 0 => rfl
    | 1 => rfl
    | n + 2 =>
      obtain ⟨depth, rfl⟩ : ∃ less, depth = less + 1 := Nat.exists_eq_succ_of_ne_zero (by omega)
      obtain ⟨count, rfl⟩ : ∃ less, count = less + 1 := Nat.exists_eq_succ_of_ne_zero (by omega)
      have inside := ih n depth (by omega) (by omega)
      rw [List.replicate_succ, List.cons_append] at inside ⊢
      have items : readItemsTo (some n) (depth + 1) ('[' :: (List.replicate count '[' ++ rest)) =
          .error .tooDeep := by
        rw [readItemsTo, inside]
        rfl
      rw [readValueTo]
      show (skipFiller _ >>= _ : Except ReadFault _) = _
      rw [skipFiller_bracket]
      show ((readItemsTo (some n) _ _).bind _ : Except ReadFault _) = _
      rw [items]
      rfl

/-- A document of one entry with such lists is refused. -/
theorem read_nested (n count : Nat) (short : n < 2 * count) (rest : List Char) :
    readWithin (some n) (String.ofList ('x' :: '=' :: (List.replicate count '[' ++ rest))) =
      .error .tooDeep := by
  have value : readValue (some n) (List.replicate count '[' ++ rest) = .error .tooDeep := by
    refine readValueTo_nested n count _ short ?_ rest
    rw [List.length_append, List.length_replicate]
    omega
  obtain ⟨count, rfl⟩ : ∃ less, count = less + 1 := Nat.exists_eq_succ_of_ne_zero (by omega)
  rw [List.replicate_succ, List.cons_append] at value ⊢
  generalize List.replicate count '[' ++ rest = lists at value ⊢
  have entry : ∀ d, readEntry (some n) d ('x' :: '=' :: '[' :: lists) = .error .tooDeep := by
    intro d
    show ((readValue (some n) ('[' :: lists)).bind _ : Except ReadFault _) = _
    rw [value]
    rfl
  rw [readWithin, String.toList_ofList]
  show (((readEntry (some n) _ ('x' :: '=' :: '[' :: lists)).bind _).bind _ :
    Except ReadFault _) = _
  rw [entry]
  rfl

end Infra.Toml
