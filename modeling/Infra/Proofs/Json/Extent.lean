import Infra.Proofs.Json.Tree
import Infra.Proofs.Reading

/-!
# What reading JSON leaves

Each reader leaves an end of its characters, so a document is refused for its digits only where they
stand in it.

* `Json.grounds` : a refusal for too many digits is founded on a run of them, and one for want of
  room on as many openings;
* `Json.leaves_readChars`, `Json.leaves_readNumber?`, `Json.leaves_to` : texts, numbers and values;
* `Json.hasDigits_of_read` : the documents that are refused for their digits;
  `Json.read_long` : a document that is a single integer is one of them;
* `Json.below_of_read` : the documents that are refused for want of room;
  `Json.read_nested` : lists inside each other are among them.
-/

namespace Infra.Json

open Decimal (isDigit)

/-- A refusal for too many digits is founded on a run of as many, and one for want of room on more
openings than there is room for. -/
def grounds (room : Room) : Grounds ReadFault where
  Founded e cs :=
    match e with
    | .malformed _ _ => True
    | .tooManyDigits count => readDigitLimit < count ∧ HasDigits count cs
    | .tooDeep => room.Below (openings cs)
  mono {e _ _} founded le :=
    match e with
    | .malformed _ _ => trivial
    | .tooManyDigits _ => ⟨founded.1, founded.2.mono le⟩
    | .tooDeep => Room.Below.mono founded (openings_le le)

variable {cs : List Char} {room : Room}

/-- What is founded with the room inside an opening is founded with the room before it. -/
theorem founded_inside {inner : Room} (less : ∀ k, inner.Below k → room.Below (k + 1)) {c : Char}
    (opens : isOpening c = true) (cs : List Char) (e : ReadFault)
    (founded : (grounds inner).Founded e cs) : (grounds room).Founded e (c :: cs) := by
  cases e with
  | malformed _ _ => trivial
  | tooManyDigits count => exact ⟨founded.1, founded.2.mono (List.suffix_cons c cs)⟩
  | tooDeep =>
    show room.Below (openings (c :: cs))
    rw [openings_cons opens]
    exact less _ founded

theorem leaves_opened {α : Type} {left : α → List Char} {c : Char} (opens : isOpening c = true)
    {rest : List Char} {f : Room → Except ReadFault α}
    (next : ∀ inner, Leaves (grounds inner) left rest (f inner)) :
    Leaves (grounds room) left (c :: rest) (room.enter 1 .tooDeep >>= f) := by
  refine .enter (fun short => short.mono ?_) fun inner less => ?_
  · rw [openings_cons opens]
    omega
  · exact (next inner).imp (List.suffix_cons c rest) (founded_inside less opens rest)

/-! ## Texts -/

theorem leaves_readChars (opening cs : List Char) :
    Leaves (grounds room) Prod.snd cs (readChars opening cs) := by
  fun_induction readChars opening cs
  case case2 => exact .ok (List.suffix_cons _ _)
  -- a pair of escapes is left together, the first of another pair alone
  case case6 a b c d next _ _ _ e f g h _ _ _ _ _ _ ih =>
    exact ih.mapFst (List.suffix_append ['\\', 'u', a, b, c, d, next, 'u', e, f, g, h] _) _
  case case7 a b c d _ _ _ _ _ _ _ _ _ _ _ _ _ _ ih =>
    exact ih.mapFst (List.suffix_append ['\\', 'u', a, b, c, d] _) _
  case case8 a b c d _ _ _ _ _ _ _ ih =>
    exact ih.mapFst (List.suffix_append ['\\', 'u', a, b, c, d] _) _
  case case9 a b c d _ _ _ _ _ _ ih =>
    exact ih.mapFst (List.suffix_append ['\\', 'u', a, b, c, d] _) _
  case case11 c _ _ _ _ ih => exact ih.mapFst (List.suffix_append ['\\', c] _) _
  case case14 _ _ _ _ _ ih => exact ih.mapFst (List.suffix_cons _ _) _
  all_goals exact .error trivial

/-! ## Numbers -/

theorem suffix_wholeDigits (cs : List Char) : (wholeDigits cs).2 <:+ cs := by
  unfold wholeDigits
  split
  · exact List.suffix_cons _ _
  · exact List.dropWhile_suffix _

theorem suffix_fractionDigits (cs : List Char) : (fractionDigits cs).2 <:+ cs := by
  unfold fractionDigits
  split
  · split
    · exact List.suffix_rfl
    · exact (List.dropWhile_suffix _).trans (List.suffix_cons _ _)
  · exact List.suffix_rfl

theorem suffix_exponentDigits (cs : List Char) : (exponentDigits cs).2 <:+ cs := by
  unfold exponentDigits
  split
  · rename_i mark rest
    split
    · split
      rename_i sign digits signed
      have after_sign : digits <:+ rest := by
        split at signed <;> cases signed
        exacts [List.suffix_cons _ _, List.suffix_cons _ _, List.suffix_rfl]
      split
      · exact List.suffix_rfl
      · exact ((List.dropWhile_suffix _).trans after_sign).trans (List.suffix_cons _ _)
    · exact List.suffix_rfl
  · exact List.suffix_rfl

theorem wholeDigits_eq_takeWhile (long : 1 < (wholeDigits cs).1.length) :
    (wholeDigits cs).1 = cs.takeWhile isDigit := by
  unfold wholeDigits at long ⊢
  split at long
  · simp at long
  · rfl

theorem one_le_readDigitLimit : 1 ≤ readDigitLimit := by
  unfold readDigitLimit
  omega

theorem leaves_readNumber? {r : Except ReadFault (Datum × List Char)}
    (h : readNumber? cs = some r) : Leaves (grounds room) Prod.snd cs r := by
  unfold readNumber? at h
  split at h
  rename_i negative body signed
  have inside : body <:+ cs := by
    split at signed <;> cases signed
    exacts [List.suffix_cons _ _, List.suffix_rfl]
  have after_whole := (suffix_wholeDigits body).trans inside
  have after_fraction := (suffix_fractionDigits (wholeDigits body).2).trans after_whole
  have after_exponent :=
    (suffix_exponentDigits (fractionDigits (wholeDigits body).2).2).trans after_fraction
  simp only at h
  split at h
  · cases h
  · cases h
    split
    · split
      · rename_i long
        refine .error ⟨long, ?_⟩
        rw [wholeDigits_eq_takeWhile (Nat.lt_of_le_of_lt one_le_readDigitLimit long)]
        exact hasDigits_takeWhile inside
      · exact .ok after_exponent
    · exact .ok after_exponent

/-! ## Values -/

theorem suffix_skipBlanks (cs : List Char) : skipBlanks cs <:+ cs := List.dropWhile_suffix _

theorem remains_readWord? (cs : List Char) : Remains Prod.snd cs (readWord? cs) := by
  intro found read
  obtain ⟨word, -, rfl⟩ := Option.map_eq_some_iff.mp read
  exact List.drop_suffix _ _

section Step

variable {depth : Nat}
  (values : ∀ room cs, Leaves (grounds room) Prod.snd cs (readValueTo room depth cs))
  (items : ∀ room cs, Leaves (grounds room) Prod.snd cs (readItemsTo room depth cs))
  (entries : ∀ room cs, Leaves (grounds room) Prod.snd cs (readEntriesTo room depth cs))

include items entries in
theorem leaves_readValueTo_succ (room : Room) (cs : List Char) :
    Leaves (grounds room) Prod.snd cs (readValueTo room (depth + 1) cs) := by
  unfold readValueTo
  split
  · exact (leaves_readChars _ _).mapFst (List.suffix_cons _ _) fun cs =>
      Datum.text (String.ofList cs)
  · rename_i rest
    refine leaves_opened rfl fun inner => ?_
    have after_bracket := suffix_skipBlanks rest
    generalize skipBlanks rest = here at after_bracket ⊢
    split
    · exact .ok ((List.suffix_cons _ _).trans after_bracket)
    · exact (items _ _).mapFst after_bracket Datum.list
  · rename_i rest
    refine leaves_opened rfl fun inner => ?_
    have after_brace := suffix_skipBlanks rest
    generalize skipBlanks rest = here at after_brace ⊢
    split
    · exact .ok ((List.suffix_cons _ _).trans after_brace)
    · exact (entries _ _).mapFst after_brace fun settings =>
        Datum.table (Entries.ofList settings)
  · split
    · rename_i word
      exact .ok (remains_readWord? cs _ word)
    · split
      · rename_i number
        exact leaves_readNumber? number
      · exact .error trivial

include values items in
theorem leaves_readItemsTo_succ (room : Room) (cs : List Char) :
    Leaves (grounds room) Prod.snd cs (readItemsTo room (depth + 1) cs) := by
  unfold readItemsTo
  refine (values room cs).bind ?_
  rintro ⟨value, after⟩
  refine Leaves.mono ?_ (suffix_skipBlanks after)
  dsimp only
  generalize skipBlanks after = here
  split
  · exact .ok (List.suffix_cons _ _)
  · rename_i rest
    exact (items _ _).mapFst ((suffix_skipBlanks rest).trans (List.suffix_cons _ _)) (value :: ·)
  · exact .error trivial

include values entries in
theorem leaves_readEntriesTo_succ (room : Room) (cs : List Char) :
    Leaves (grounds room) Prod.snd cs (readEntriesTo room (depth + 1) cs) := by
  unfold readEntriesTo
  split
  · rename_i rest
    refine ((leaves_readChars _ rest).bind ?_).mono (List.suffix_cons _ _)
    rintro ⟨name, after⟩
    refine Leaves.mono ?_ (suffix_skipBlanks after)
    dsimp only
    generalize skipBlanks after = here
    split
    · rename_i rest
      refine ((values _ _).bind ?_).mono ((suffix_skipBlanks rest).trans (List.suffix_cons _ _))
      rintro ⟨value, after⟩
      refine Leaves.mono ?_ (suffix_skipBlanks after)
      dsimp only
      generalize skipBlanks after = here
      split
      · exact .ok (List.suffix_cons _ _)
      · rename_i rest
        exact (entries _ _).mapFst ((suffix_skipBlanks rest).trans (List.suffix_cons _ _)) (_ :: ·)
      · exact .error trivial
    · exact .error trivial
  · exact .error trivial

end Step

/-- Values, items and entries to some depth. -/
theorem leaves_to (depth : Nat) :
    (∀ room cs, Leaves (grounds room) Prod.snd cs (readValueTo room depth cs)) ∧
    (∀ room cs, Leaves (grounds room) Prod.snd cs (readItemsTo room depth cs)) ∧
    (∀ room cs, Leaves (grounds room) Prod.snd cs (readEntriesTo room depth cs)) := by
  induction depth with
  | zero =>
    exact ⟨fun _ _ => .error trivial, fun _ _ => .error trivial, fun _ _ => .error trivial⟩
  | succ depth ih =>
    obtain ⟨values, items, entries⟩ := ih
    exact ⟨leaves_readValueTo_succ items entries, leaves_readItemsTo_succ values items,
      leaves_readEntriesTo_succ values entries⟩

/-! ## Documents -/

theorem leaves_readDocument (room : Room) (cs : List Char) :
    Leaves (grounds room) (fun _ => []) cs (readDocument room cs) := by
  unfold readDocument
  split
  · exact .error trivial
  · refine (((leaves_to _).1 _ _).bind ?_).mono (suffix_skipBlanks cs)
    rintro ⟨value, after⟩
    dsimp only
    split
    · exact .ok List.nil_suffix
    · exact .error trivial

/-- A document is refused for its digits only where it has as many. -/
theorem hasDigits_of_read {document : String} {count : Nat}
    (h : readWithin room document = .error (.tooManyDigits count)) :
    readDigitLimit < count ∧ HasDigits count document.toList := by
  have leaves := leaves_readDocument room document.toList
  rw [show readDocument room document.toList = _ from h] at leaves
  exact leaves.founded

/-- A document is refused for want of room only where it has more openings. -/
theorem below_of_read {document : String} (h : readWithin room document = .error .tooDeep) :
    room.Below (openings document.toList) := by
  have leaves := leaves_readDocument room document.toList
  rw [show readDocument room document.toList = _ from h] at leaves
  exact leaves.founded

theorem Whole.isDigit {ds : List Char} (whole : Whole ds) : ∀ c ∈ ds, isDigit c = true := by
  cases whole with
  | zero => exact List.forall_mem_singleton.mpr rfl
  | digits _ all => exact all

/-- A single integer with too many digits is refused for them. -/
theorem read_long {ds : List Char} (whole : Whole ds) (long : readDigitLimit < ds.length) :
    readWithin room (String.ofList ds) = .error (.tooManyDigits ds.length) := by
  have number : readNumber? ds = some (.error (.tooManyDigits ds.length)) := by
    have cut := readNumber?_eq false whole (nofun : NoDigit []) rfl rfl
    rw [if_pos (by rfl), if_pos long, List.append_nil] at cut
    exact cut
  obtain ⟨c, more, rfl, digit⟩ := whole.exists_head
  have other : ∀ mark, isDigit mark = false → c ≠ mark := by
    rintro _ plain rfl
    cases plain.symm.trans digit
  have visible : isBlank c = false := by
    simp [isBlank, other ' ' rfl, other '\t' rfl, other '\n' rfl, other '\r' rfl]
  rw [readWithin, String.toList_ofList, readDocument, skipBlanks_of_visible visible,
    readValueTo_number number]
  · rfl
  · exact fun _ same => other '\ufeff' rfl (List.cons.inj same).1

/-! ## Nested lists -/

/-- Lists inside each other are refused where there is no room for them all. -/
theorem readValueTo_nested (n count depth : Nat) (short : n < count) (enough : 2 * n < depth)
    (rest : List Char) :
    readValueTo (some n) depth (List.replicate count '[' ++ rest) = .error .tooDeep := by
  induction n generalizing count depth with
  | zero =>
    obtain ⟨depth, rfl⟩ : ∃ less, depth = less + 1 := Nat.exists_eq_succ_of_ne_zero (by omega)
    obtain ⟨count, rfl⟩ : ∃ less, count = less + 1 := Nat.exists_eq_succ_of_ne_zero (by omega)
    rfl
  | succ n ih =>
    obtain ⟨depth, rfl⟩ : ∃ less, depth = less + 2 := ⟨depth - 2, by omega⟩
    obtain ⟨count, rfl⟩ : ∃ less, count = less + 2 := ⟨count - 2, by omega⟩
    have inside := ih (count + 1) depth (by omega) (by omega)
    rw [List.replicate_succ, List.cons_append] at inside ⊢
    rw [readValueTo, List.replicate_succ, List.cons_append, skipBlanks_of_visible rfl]
    show ((readItemsTo (some n) (depth + 1) _).bind _ : Except ReadFault _) = _
    rw [readItemsTo, inside]
    rfl

/-- A document that begins with such lists is refused. -/
theorem read_nested (n count : Nat) (short : n < count) (rest : List Char) :
    readWithin (some n) (String.ofList (List.replicate count '[' ++ rest)) = .error .tooDeep := by
  have value := readValueTo_nested n count
    (2 * (List.replicate count '[' ++ rest).length + 2) short
    (by rw [List.length_append, List.length_replicate]; omega) rest
  obtain ⟨count, rfl⟩ : ∃ less, count = less + 1 := Nat.exists_eq_succ_of_ne_zero (by omega)
  rw [List.replicate_succ, List.cons_append] at value ⊢
  rw [readWithin, String.toList_ofList, readDocument, skipBlanks_of_visible rfl, value]
  · rfl
  · exact fun _ same => absurd (List.cons.inj same).1 (by decide)

end Infra.Json
