import Infra.Proofs.Datum
import Infra.Proofs.Json.Number
import Infra.Proofs.Json.Text
import Infra.Proofs.Json.Written
import Mathlib.Tactic.FinCases

/-!
# Written trees are read back

* `Json.readWord?_word` : the words that are values are read as them;
* `Json.readValueTo_scalar` : the written form of a scalar is read as the scalar;
* `Json.Reads` : the tree is read back at every depth, whatever follows;
* `Json.reads_of_builtOf` : a tree of lists and of tables under different texts is;
* `Json.read_document` : so the document of such a tree is read as the tree.
-/

namespace Infra.Json

open Decimal

/-! ## Words -/

theorem words_eq : words = [(['n', 'u', 'l', 'l'], .null), (['t', 'r', 'u', 'e'], .bool true),
    (['f', 'a', 'l', 's', 'e'], .bool false), (['N', 'a', 'N'], .leaf (.float .notANumber)),
    (['I', 'n', 'f', 'i', 'n', 'i', 't', 'y'], .leaf (.float (.infinity false))),
    (['-', 'I', 'n', 'f', 'i', 'n', 'i', 't', 'y'], .leaf (.float (.infinity true)))] := by
  simp [words]

/-- No word begins like another one. -/
theorem readWord?_word {word : List Char} {d : Datum} (mem : (word, d) ∈ words) (rest : List Char) :
    readWord? (word ++ rest) = some (d, rest) := by
  unfold readWord?
  rw [words_eq] at mem ⊢
  fin_cases mem <;> simp

theorem exists_digit_of_readNumber? {cs : List Char} {found : Except ReadFault (Datum × List Char)}
    (h : readNumber? cs = some found) :
    ∃ negative c more, cs = signChars negative ++ c :: more ∧ isDigit c = true := by
  have ofWhole : ∀ body, (wholeDigits body).1.isEmpty = false →
      ∃ c more, body = c :: more ∧ isDigit c = true := by
    intro body filled
    cases body with
    | nil => cases filled
    | cons c more =>
      refine ⟨c, more, rfl, ?_⟩
      by_contra other
      have plain : c ≠ '0' := by
        rintro rfl
        exact other rfl
      rw [wholeDigits, List.takeWhile_cons_of_neg other] at filled
      · cases filled
      · exact fun _ same => plain (List.cons.inj same).1
  unfold readNumber? at h
  split at h
  next negative body split =>
  dsimp only at h
  split at h
  · cases h
  · next filled =>
    obtain ⟨c, more, rfl, digit⟩ := ofWhole body (by simpa using filled)
    refine ⟨negative, c, more, ?_, digit⟩
    split at split
    · cases split
      rfl
    · cases split
      rfl

theorem readWord?_number {c : Char} (digit : isDigit c = true) (negative : Bool)
    (more : List Char) : readWord? (signChars negative ++ c :: more) = none := by
  have other : ∀ d, isDigit d = false → d ≠ c := by
    rintro d plain rfl
    cases plain.symm.trans digit
  have n := other 'n' rfl
  have t := other 't' rfl
  have f := other 'f' rfl
  have capital := other 'N' rfl
  have i := other 'I' rfl
  have minus := other '-' rfl
  unfold readWord?
  rw [words_eq]
  cases negative <;> simp [signChars, n, t, f, capital, i, minus]

/-! ## Scalars -/

theorem readValueTo_word {word : List Char} {d : Datum} (mem : (word, d) ∈ words) (room : Room)
    (depth : Nat) (rest : List Char) :
    readValueTo room (depth + 1) (word ++ rest) = .ok (d, rest) := by
  have read := readWord?_word mem rest
  have first : ∀ more, word ++ rest ≠ '"' :: more ∧ word ++ rest ≠ '[' :: more ∧
      word ++ rest ≠ '\x7b' :: more := by
    intro more
    rw [words_eq] at mem
    fin_cases mem <;> simp
  rw [readValueTo.eq_5 _ _ _ (fun more => (first more).1) (fun more => (first more).2.1)
    (fun more => (first more).2.2), read]

theorem readValueTo_number {cs : List Char} {found : Except ReadFault (Datum × List Char)}
    (h : readNumber? cs = some found) (room : Room) (depth : Nat) :
    readValueTo room (depth + 1) cs = found := by
  obtain ⟨negative, c, more, rfl, digit⟩ := exists_digit_of_readNumber? h
  have other : ∀ mark, isDigit mark = false → mark ≠ '-' → ∀ tail,
      signChars negative ++ c :: more ≠ mark :: tail := by
    intro mark plain sign tail same
    cases negative with
    | true => exact sign (List.cons.inj same).1.symm
    | false =>
      rw [(List.cons.inj same).1] at digit
      cases plain.symm.trans digit
  rw [readValueTo.eq_5 _ _ _ (other '"' rfl (by decide)) (other '[' rfl (by decide))
    (other '\x7b' rfl (by decide)), readWord?_number digit, h]

/-- The written form of a scalar is read as the scalar. -/
theorem readValueTo_scalar {v : Value} {cs rest : List Char} (h : scalarChars v = .ok cs)
    (ends : Ends rest) (room : Room) (depth : Nat) :
    readValueTo room (depth + 1) (cs ++ rest) = .ok (.leaf v.unified, rest) := by
  cases v with
  | null =>
    cases h
    exact readValueTo_word (by simp [words, Datum.null, Value.unified]) room depth rest
  | bool b =>
    cases h
    refine readValueTo_word ?_ room depth rest
    cases b <;> simp [words, Datum.bool, Value.unified]
  | int n =>
    obtain ⟨text, written, rfl⟩ := map_eq_ok_iff.mp h
    exact readValueTo_number (readNumber?_int written ends) room depth
  | float x =>
    cases h
    cases parts : x.parts with
    | notANumber =>
      have text : (floatText x).toList = "NaN".toList := by rw [floatText, parts]
      rw [text, Value.unified, if_pos parts]
      exact readValueTo_word (by simp [words]) room depth rest
    | infinite negative =>
      have same : (Value.float x).unified = .float (.infinity negative) := by
        rw [Value.unified, if_neg (by simp [parts]), eq_infinity_of_parts parts]
      have text : (floatText x).toList =
          (if negative then "-Infinity" else "Infinity").toList := by rw [floatText, parts]
      rw [text, same]
      refine readValueTo_word ?_ room depth rest
      cases negative <;> simp [words]
    | finite negative mantissa exponent =>
      rw [Value.unified, if_neg (by simp [parts])]
      exact readValueTo_number (readNumber?_float parts ends) room depth
  | text s =>
    cases h
    show readValueTo room (depth + 1) ('"' :: (s.toList.flatMap stringChar ++ ['"'] ++ rest)) = _
    rw [readValueTo, List.append_assoc, List.singleton_append, readChars_stringChars]
    show Except.ok (Datum.text (String.ofList s.toList), rest) = _
    rw [String.ofList_toList]
    rfl
  | _ => cases h

/-! ## Blanks -/

theorem skipBlanks_of_visible {c : Char} (visible : isBlank c = false) (more : List Char) :
    skipBlanks (c :: more) = c :: more := by
  rw [skipBlanks, List.dropWhile_cons_of_neg (by simp [visible])]

theorem skipBlanks_break (depth : Nat) {c : Char} (visible : isBlank c = false) (more : List Char) :
    skipBlanks (breakChars depth ++ c :: more) = c :: more := by
  have blank : ∀ d ∈ breakChars depth, isBlank d = true := by
    refine List.forall_mem_cons.mpr ⟨rfl, fun d mem => ?_⟩
    rw [List.eq_of_mem_replicate mem]
    rfl
  rw [skipBlanks, List.dropWhile_append_of_pos blank]
  exact skipBlanks_of_visible visible more

theorem skipBlanks_space {c : Char} (visible : isBlank c = false) (more : List Char) :
    skipBlanks (' ' :: c :: more) = c :: more :=
  skipBlanks_of_visible visible more

/-- The character cannot begin a value: it is a blank, a closing bracket or a byte order mark. -/
def isUnfit (c : Char) : Bool := isBlank c || c == ']' || c == '\ufeff'

theorem readValueTo_unfit {c : Char} (h : isUnfit c = true) (room : Room) (depth : Nat)
    (more : List Char) : ∃ fault, readValueTo room depth (c :: more) = .error fault := by
  cases depth with
  | zero => exact ⟨_, rfl⟩
  | succ depth =>
    have shown : c = ' ' ∨ c = '\t' ∨ c = '\n' ∨ c = '\r' ∨ c = ']' ∨ c = '\ufeff' := by
      simpa [isUnfit, isBlank, or_assoc] using h
    rcases shown with rfl | rfl | rfl | rfl | rfl | rfl <;> exact ⟨_, rfl⟩

/-- What a value is read from begins with a fit character. -/
theorem exists_head_of_readValueTo {room : Room} {depth : Nat} {cs : List Char}
    {found : Datum × List Char} (h : readValueTo room depth cs = .ok found) :
    ∃ c more, cs = c :: more ∧ isUnfit c = false := by
  cases cs with
  | nil => cases depth <;> cases h
  | cons c more =>
    refine ⟨c, more, rfl, Bool.eq_false_iff.mpr fun unfit => ?_⟩
    obtain ⟨fault, failed⟩ := readValueTo_unfit unfit room depth more
    cases h.symm.trans failed

theorem fit_iff {c : Char} : isUnfit c = false ↔ isBlank c = false ∧ c ≠ ']' ∧ c ≠ '\ufeff' := by
  simp [isUnfit, and_assoc]

/-! ## Trees -/

/-- The tree is read back at every depth, whatever follows. -/
def Reads (d : Datum) : Prop :=
  ∀ ⦃depth : Nat⦄ ⦃cs rest : List Char⦄, charsAt depth d = .ok cs → Ends rest → ∀ fuel,
    cs.length < fuel → readValueTo none fuel (cs ++ rest) = .ok (d.unified, rest)

variable {depth fuel : Nat}

theorem charsOfItems_cons {item : Datum} {items : List Datum} {parts : List (List Char)}
    (h : charsOfItems depth (item :: items) = .ok parts) :
    ∃ cs more, charsAt depth item = .ok cs ∧ charsOfItems depth items = .ok more ∧
      parts = cs :: more := by
  obtain ⟨cs, first, later⟩ := bind_eq_ok_iff.mp h
  obtain ⟨more, others, eq⟩ := bind_eq_ok_iff.mp later
  cases eq
  exact ⟨cs, more, first, others, rfl⟩

theorem readItemsTo_last {cs after rest : List Char} {d : Datum}
    (value : readValueTo none fuel cs = .ok (d, after)) (closes : skipBlanks after = ']' :: rest) :
    readItemsTo none (fuel + 1) cs = .ok ([d], rest) := by
  rw [readItemsTo]
  refine bind_eq_ok_iff.mpr ⟨(d, after), value, ?_⟩
  simp only [closes]

theorem readItemsTo_more {cs after next rest : List Char} {d : Datum} {ds : List Datum}
    (value : readValueTo none fuel cs = .ok (d, after)) (goes : skipBlanks after = ',' :: next)
    (more : readItemsTo none fuel (skipBlanks next) = .ok (ds, rest)) :
    readItemsTo none (fuel + 1) cs = .ok (d :: ds, rest) := by
  rw [readItemsTo]
  refine bind_eq_ok_iff.mpr ⟨(d, after), value, ?_⟩
  simp only [goes]
  exact bind_eq_ok_iff.mpr ⟨(ds, rest), more, rfl⟩

theorem exists_head_of_readItemsTo {cs : List Char} {found : List Datum × List Char}
    (h : readItemsTo none fuel cs = .ok found) :
    ∃ c more, cs = c :: more ∧ isUnfit c = false := by
  cases fuel with
  | zero => cases h
  | succ fuel =>
    rw [readItemsTo] at h
    obtain ⟨_, value, -⟩ := bind_eq_ok_iff.mp h
    exact exists_head_of_readValueTo value

theorem readItemsTo_items {item : Datum} {items : List Datum}
    (each : ∀ d ∈ item :: items, Reads d) {parts : List (List Char)}
    (h : charsOfItems depth (item :: items) = .ok parts) (fuel : Nat)
    (enough : (List.intercalate (',' :: breakChars depth) parts).length + 1 < fuel) (before : Nat)
    (rest : List Char) :
    readItemsTo none fuel (List.intercalate (',' :: breakChars depth) parts ++
      (breakChars before ++ ']' :: rest)) = .ok (Datum.unifiedItems (item :: items), rest) := by
  induction items generalizing item parts fuel with
  | nil =>
    obtain ⟨cs, _, first, none, rfl⟩ := charsOfItems_cons h
    cases none
    rw [List.intercalate_singleton] at enough ⊢
    obtain ⟨fuel, rfl⟩ : ∃ less, fuel = less + 1 := Nat.exists_eq_succ_of_ne_zero (by omega)
    have value := each item List.mem_cons_self first
      (.line (List.replicate (2 * before) ' ' ++ ']' :: rest)) fuel (by omega)
    exact readItemsTo_last value (skipBlanks_break before rfl rest)
  | cons next items ih =>
    obtain ⟨reads, later⟩ := List.forall_mem_cons.mp each
    obtain ⟨cs, more, first, others, rfl⟩ := charsOfItems_cons h
    have filled : more ≠ [] := by
      obtain ⟨_, _, -, -, rfl⟩ := charsOfItems_cons others
      exact List.cons_ne_nil _ _
    rw [List.intercalate_cons_of_ne_nil filled] at enough ⊢
    rw [List.length_append, List.length_append, List.length_cons] at enough
    obtain ⟨fuel, rfl⟩ : ∃ less, fuel = less + 1 := Nat.exists_eq_succ_of_ne_zero (by omega)
    have items := ih later others fuel (by omega)
    obtain ⟨c, tail, eq, fit⟩ := exists_head_of_readItemsTo items
    have value := reads first (.comma (breakChars depth ++ c :: tail)) fuel (by omega)
    rw [List.append_assoc, List.append_assoc, List.cons_append, eq]
    refine readItemsTo_more value (skipBlanks_of_visible rfl _) ?_
    rw [skipBlanks_break depth (fit_iff.mp fit).1, ← eq]
    exact items

theorem charsOfEntries_cons {key : String} {d : Datum} {entries : List (Value × Datum)}
    {parts : List (List Char)} (h : charsOfEntries depth ((.text key, d) :: entries) = .ok parts) :
    ∃ cs more, charsAt depth d = .ok cs ∧ charsOfEntries depth entries = .ok more ∧
      parts = (stringChars key.toList ++ ':' :: ' ' :: cs) :: more := by
  obtain ⟨name, own, later⟩ := bind_eq_ok_iff.mp h
  obtain ⟨cs, value, later⟩ := bind_eq_ok_iff.mp later
  obtain ⟨more, others, eq⟩ := bind_eq_ok_iff.mp later
  cases own
  cases eq
  exact ⟨cs, more, value, others, rfl⟩

/-- An entry is read, and then the entries after it if a comma follows its value. -/
theorem readEntriesTo_entry {key : String} {cs after rest : List Char} {d : Datum}
    {entries : List (Value × Datum)} (value : readValueTo none fuel cs = .ok (d, after))
    (follows : skipBlanks after = '\x7d' :: rest ∧ entries = [] ∨
      ∃ next, skipBlanks after = ',' :: next ∧
        readEntriesTo none fuel (skipBlanks next) = .ok (entries, rest)) :
    readEntriesTo none (fuel + 1) (stringChars key.toList ++ ':' :: ' ' :: cs) =
      .ok ((.text key, d) :: entries, rest) := by
  obtain ⟨c, more, rfl, fit⟩ := exists_head_of_readValueTo value
  have visible := (fit_iff.mp fit).1
  have colon := skipBlanks_of_visible (c := ':') rfl (' ' :: c :: more)
  rw [stringChars, List.append_assoc, List.cons_append, readEntriesTo, List.singleton_append,
    readChars_stringChars]
  simp only [bind, Except.bind, colon, skipBlanks_space visible, value, String.ofList_toList]
  rcases follows with ⟨closes, rfl⟩ | ⟨next, goes, others⟩
  · simp only [closes]
  · simp only [goes, others]

theorem exists_head_of_readEntriesTo {cs : List Char} {found : List (Value × Datum) × List Char}
    (h : readEntriesTo none fuel cs = .ok found) : ∃ more, cs = '"' :: more := by
  cases fuel with
  | zero => cases h
  | succ fuel =>
    unfold readEntriesTo at h
    split at h
    · exact ⟨_, rfl⟩
    · cases h

theorem readEntriesTo_entries {entry : String × Datum} {entries : List (String × Datum)}
    (each : ∀ e ∈ entry :: entries, Reads e.2) {parts : List (List Char)}
    (h : charsOfEntries depth (Entries.ofNamed (entry :: entries)) = .ok parts) (fuel : Nat)
    (enough : (List.intercalate (',' :: breakChars depth) parts).length + 1 < fuel) (before : Nat)
    (rest : List Char) :
    readEntriesTo none fuel (List.intercalate (',' :: breakChars depth) parts ++
      (breakChars before ++ '\x7d' :: rest)) =
        .ok (Datum.unifiedEntries (Entries.ofNamed (entry :: entries)), rest) := by
  induction entries generalizing entry parts fuel with
  | nil =>
    obtain ⟨cs, _, first, none, rfl⟩ := charsOfEntries_cons h
    cases none
    rw [List.intercalate_singleton] at enough ⊢
    rw [List.length_append, List.length_cons, List.length_cons] at enough
    obtain ⟨fuel, rfl⟩ : ∃ less, fuel = less + 1 := Nat.exists_eq_succ_of_ne_zero (by omega)
    have value := each entry List.mem_cons_self first
      (.line (List.replicate (2 * before) ' ' ++ '\x7d' :: rest)) fuel (by omega)
    have closes := skipBlanks_break before (c := '\x7d') rfl rest
    rw [List.append_assoc, List.cons_append, List.cons_append]
    exact readEntriesTo_entry value (.inl ⟨closes, rfl⟩)
  | cons next entries ih =>
    obtain ⟨reads, later⟩ := List.forall_mem_cons.mp each
    obtain ⟨cs, more, first, others, rfl⟩ := charsOfEntries_cons h
    have filled : more ≠ [] := by
      obtain ⟨_, _, -, -, rfl⟩ := charsOfEntries_cons others
      exact List.cons_ne_nil _ _
    rw [List.intercalate_cons_of_ne_nil filled] at enough ⊢
    simp only [List.length_append, List.length_cons] at enough
    obtain ⟨fuel, rfl⟩ : ∃ less, fuel = less + 1 := Nat.exists_eq_succ_of_ne_zero (by omega)
    have entries := ih later others fuel (by omega)
    obtain ⟨tail, eq⟩ := exists_head_of_readEntriesTo entries
    have value := reads first (.comma (breakChars depth ++ '"' :: tail)) fuel (by omega)
    have comma := skipBlanks_of_visible (c := ',') rfl (breakChars depth ++ '"' :: tail)
    rw [List.append_assoc, List.append_assoc, List.append_assoc, List.cons_append, List.cons_append,
      List.cons_append, eq]
    refine readEntriesTo_entry value (.inr ⟨_, comma, ?_⟩)
    rw [skipBlanks_break depth rfl, ← eq]
    exact entries

theorem encloseChars_append (opening closing : Char) (depth : Nat) {parts : List (List Char)}
    (filled : parts ≠ []) (rest : List Char) :
    encloseChars opening closing depth parts ++ rest = opening :: (breakChars (depth + 1) ++
      (List.intercalate (',' :: breakChars (depth + 1)) parts ++
        (breakChars depth ++ closing :: rest))) := by
  rw [encloseChars, if_neg (by simpa using filled)]
  simp

theorem reads_list {items : List Datum} (each : ∀ item ∈ items, Reads item) :
    Reads (.list items) := by
  intro depth cs rest h ends fuel enough
  obtain ⟨parts, written, rfl⟩ := map_eq_ok_iff.mp h
  obtain ⟨fuel, rfl⟩ : ∃ less, fuel = less + 1 := Nat.exists_eq_succ_of_ne_zero (by omega)
  cases items with
  | nil =>
    cases written
    rfl
  | cons item items =>
    have filled : parts ≠ [] := by
      obtain ⟨_, _, -, -, rfl⟩ := charsOfItems_cons written
      exact List.cons_ne_nil _ _
    have size := congrArg List.length (encloseChars_append '[' ']' depth filled [])
    simp only [List.append_nil, List.length_append, List.length_cons] at size
    have inside := readItemsTo_items each written fuel (by omega) depth rest
    obtain ⟨c, more, eq, fit⟩ := exists_head_of_readItemsTo inside
    obtain ⟨visible, other, -⟩ := fit_iff.mp fit
    rw [encloseChars_append '[' ']' depth filled, eq, readValueTo, skipBlanks_break _ visible]
    simp only [Room.enter_none, bind, Except.bind]
    split
    · next closes => exact absurd (List.cons.inj closes).1 other
    · exact bind_eq_ok_iff.mpr ⟨_, eq ▸ inside, rfl⟩

/-- Entries under different texts are left as they are. -/
theorem ofList_unifiedEntries {entries : List (String × Datum)}
    (nodup : (entries.map (·.1)).Nodup) :
    Entries.ofList (Datum.unifiedEntries (Entries.ofNamed entries)) =
      Datum.unifiedEntries (Entries.ofNamed entries) := by
  have named : Datum.unifiedEntries (Entries.ofNamed entries) =
      Entries.ofNamed (entries.map fun entry => (entry.1, entry.2.unified)) := by
    rw [Datum.unifiedEntries_eq, Entries.ofNamed, Entries.ofNamed, List.map_map, List.map_map]
    rfl
  have names : (entries.map fun entry => (entry.1, entry.2.unified)).map (·.1) =
      entries.map (·.1) := List.map_map
  rw [named, Entries.ofList_ofNamed, Named.ofList_eq, Named.setAll_of_new, List.nil_append]
  rw [List.map_nil, List.nil_append, names]
  exact nodup

theorem reads_record {entries : List (String × Datum)} (nodup : (entries.map (·.1)).Nodup)
    (each : ∀ entry ∈ entries, Reads entry.2) : Reads (.record entries) := by
  intro depth cs rest h ends fuel enough
  obtain ⟨parts, written, rfl⟩ := map_eq_ok_iff.mp h
  obtain ⟨fuel, rfl⟩ : ∃ less, fuel = less + 1 := Nat.exists_eq_succ_of_ne_zero (by omega)
  have left := ofList_unifiedEntries nodup
  cases entries with
  | nil =>
    cases written
    rfl
  | cons entry entries =>
    have filled : parts ≠ [] := by
      obtain ⟨_, _, -, -, rfl⟩ := charsOfEntries_cons written
      exact List.cons_ne_nil _ _
    have size := congrArg List.length (encloseChars_append '\x7b' '\x7d' depth filled [])
    simp only [List.append_nil, List.length_append, List.length_cons] at size
    have inside := readEntriesTo_entries each written fuel (by omega) depth rest
    obtain ⟨more, eq⟩ := exists_head_of_readEntriesTo inside
    rw [encloseChars_append '\x7b' '\x7d' depth filled, eq, readValueTo, skipBlanks_break _ rfl]
    refine bind_eq_ok_iff.mpr ⟨none, rfl, ?_⟩
    refine bind_eq_ok_iff.mpr ⟨_, eq ▸ inside, ?_⟩
    dsimp only
    rw [left]
    rfl

/-- A tree of lists and of tables under different texts is read back. -/
theorem reads_of_builtOf {d : Datum} (built : d.BuiltOf fun _ => True) : Reads d := by
  induction built with
  | leaf =>
    intro depth cs rest h ends fuel enough
    obtain ⟨fuel, rfl⟩ : ∃ less, fuel = less + 1 := Nat.exists_eq_succ_of_ne_zero (by omega)
    exact readValueTo_scalar h ends none fuel
  | list _ ih => exact reads_list ih
  | record nodup _ ih => exact reads_record nodup ih

/-! ## Documents -/

/-- The document of a tree of lists and of tables under different texts is read as the tree, but for
numbers that are none, which have one written form. -/
theorem read_document {d : Datum} (built : d.BuiltOf fun _ => True) {text : String}
    (h : document d = .ok text) : read text = .ok d.unified := by
  have value := reads_of_builtOf built (document_eq_ok_iff.mp h) .document
    (2 * text.toList.length + 2) (by omega)
  rw [List.append_nil] at value
  obtain ⟨c, more, eq, fit⟩ := exists_head_of_readValueTo value
  obtain ⟨visible, -, mark⟩ := fit_iff.mp fit
  rw [eq] at value
  rw [read, readWithin, eq, readDocument, skipBlanks_of_visible visible]
  · exact bind_eq_ok_iff.mpr ⟨_, value, rfl⟩
  · exact fun _ same => mark (List.cons.inj same).1

end Infra.Json
