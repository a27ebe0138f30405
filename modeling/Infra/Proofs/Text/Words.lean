import Infra.Proofs.Text.Upper
import Mathlib.Data.List.Basic

/-!
# Spellings of the same words

The rendered spelling of a key depends on the words between its separators only. A key without
separators is one word, so that both branches of the spelling are one (`pascalChars_eq`).

* `splitWords_append_separator` : a separator parts the words before it from those after it;
* `IsWord`, `AreGaps` : words, and what stands after each of them; `spread` : the text of both;
  `splitWords_spread` : its words;
* `capitalize_of_head` : what begins with its own upper case is kept;
* `pascalCase_spellings` : all spellings of the same words have one rendered spelling, which has no
  separators and is its own.
-/

namespace Infra.Text

/-! ## Pieces and words -/

theorem splitPieces_eq (cs : List Char) : splitPieces cs = cs.splitOnP isSeparator := by
  induction cs with
  | nil => rw [splitPieces, List.splitOnP_nil]
  | cons c rest ih =>
    rw [splitPieces, List.splitOnP_cons_eq_if_modifyHead, ih]
    congr 1
    split
    · next none => exact absurd none (List.splitOnP_ne_nil _ _)
    · next some => rw [some, List.modifyHead_cons]

/-- A separator parts the words before it from those after it. -/
theorem splitWords_append_separator {c : Char} (separates : isSeparator c = true)
    (before after : List Char) :
    splitWords (before ++ c :: after) = splitWords before ++ splitWords after := by
  unfold splitWords
  rw [splitPieces_eq, splitPieces_eq, splitPieces_eq, List.splitOnP_append_cons _ _ separates,
    List.filter_append]

theorem splitWords_cons_separator {c : Char} (separates : isSeparator c = true)
    (rest : List Char) : splitWords (c :: rest) = splitWords rest :=
  splitWords_append_separator separates [] rest

theorem splitWords_gap {gap : List Char} (separates : ∀ c ∈ gap, isSeparator c = true)
    (rest : List Char) : splitWords (gap ++ rest) = splitWords rest := by
  induction gap with
  | nil => rfl
  | cons c gap ih =>
    obtain ⟨here, later⟩ := List.forall_mem_cons.mp separates
    rw [List.cons_append, splitWords_cons_separator here, ih later]

/-- A word: it is not empty, and has no separators. -/
structure IsWord (word : List Char) : Prop where
  filled : word ≠ []
  plain : ∀ c ∈ word, isSeparator c = false

theorem splitWords_word {word : List Char} (own : IsWord word) : splitWords word = [word] := by
  unfold splitWords
  rw [splitPieces_eq, List.splitOnP_eq_singleton own.plain]
  exact List.filter_cons_of_pos (by simpa using own.filled)

theorem plain_of_mem_splitPieces {cs piece : List Char} (mem : piece ∈ splitPieces cs) :
    ∀ c ∈ piece, isSeparator c = false := by
  induction cs generalizing piece with
  | nil =>
    rw [splitPieces, List.mem_singleton] at mem
    rw [mem]
    nofun
  | cons c rest ih =>
    rw [splitPieces] at mem
    by_cases separates : isSeparator c = true
    · rw [if_pos separates] at mem
      rcases List.mem_cons.mp mem with rfl | later
      · nofun
      · exact ih later
    · rw [if_neg separates] at mem
      have plain : isSeparator c = false := by simpa using separates
      split at mem
      · rw [List.mem_singleton] at mem
        rw [mem]
        exact List.forall_mem_singleton.mpr plain
      · next first others eq =>
        rcases List.mem_cons.mp mem with rfl | later
        · exact List.forall_mem_cons.mpr ⟨plain, ih (eq ▸ List.mem_cons_self)⟩
        · exact ih (eq ▸ List.mem_cons_of_mem _ later)

theorem isWord_of_mem_splitWords {cs word : List Char} (mem : word ∈ splitWords cs) :
    IsWord word := by
  obtain ⟨piece, filled⟩ := List.mem_filter.mp mem
  exact ⟨by simpa using filled, plain_of_mem_splitPieces piece⟩

/-! ## Texts of words -/

/-- Words, each with what stands after it. -/
def spread (words gaps : List (List Char)) : List Char :=
  (List.zipWith (· ++ ·) words gaps).flatten

/-- What stands after words: separators, and at least one wherever another word follows. -/
structure AreGaps (gaps : List (List Char)) : Prop where
  separate : ∀ gap ∈ gaps, ∀ c ∈ gap, isSeparator c = true
  part : ∀ gap ∈ gaps.dropLast, gap ≠ []

theorem AreGaps.tail {gap : List Char} {gaps : List (List Char)} (own : AreGaps (gap :: gaps)) :
    AreGaps gaps where
  separate other mem := own.separate other (List.mem_cons_of_mem _ mem)
  part other mem := by
    cases gaps with
    | nil => cases mem
    | cons next gaps => exact own.part other (List.mem_cons_of_mem _ mem)

/-- The words of a text are those that it was made of. -/
theorem splitWords_spread {words gaps : List (List Char)} (each : ∀ word ∈ words, IsWord word)
    (same : gaps.length = words.length) (between : AreGaps gaps) :
    splitWords (spread words gaps) = words := by
  induction words generalizing gaps with
  | nil => rfl
  | cons word words ih =>
    obtain ⟨gap, gaps, rfl⟩ := List.exists_cons_of_length_eq_add_one same
    obtain ⟨here, later⟩ := List.forall_mem_cons.mp each
    have rest := ih later (Nat.succ.inj same) between.tail
    rw [show spread (word :: words) (gap :: gaps) = word ++ gap ++ spread words gaps from rfl]
    have separate := between.separate gap List.mem_cons_self
    match gap, gaps with
    | c :: gap, gaps =>
      obtain ⟨separates, others⟩ := List.forall_mem_cons.mp separate
      rw [List.append_assoc, List.cons_append, splitWords_append_separator separates,
        splitWords_gap others, splitWords_word here, rest, List.singleton_append]
    | [], [] =>
      obtain rfl : words = [] := List.length_eq_zero_iff.mp (Nat.succ.inj same).symm
      rw [show word ++ [] ++ spread [] [] = word by simp [spread], splitWords_word here]
    | [], next :: gaps => exact absurd rfl (between.part [] List.mem_cons_self)

/-! ## The rendered spelling -/

/-- The rendered spelling joins the words of a key. A key without separators is a word itself. -/
theorem pascalChars_eq (cs : List Char) : pascalChars cs = (splitWords cs).flatMap capitalize := by
  unfold pascalChars
  split
  · rfl
  · next none =>
    by_cases filled : cs = []
    · rw [filled]
      rfl
    · have plain : ∀ c ∈ cs, isSeparator c = false := by simpa using none
      rw [splitWords_word ⟨filled, plain⟩, List.flatMap_singleton]

theorem isSeparator_of_mem_capitalize {word : List Char}
    (plain : ∀ c ∈ word, isSeparator c = false) {u : Char} (mem : u ∈ capitalize word) :
    isSeparator u = false := by
  cases word with
  | nil => cases mem
  | cons c rest =>
    obtain ⟨here, later⟩ := List.forall_mem_cons.mp plain
    rcases List.mem_append.mp mem with upper | kept
    · exact isSeparator_of_mem_upperChar here upper
    · exact later u kept

theorem isSeparator_of_mem_pascalChars {cs : List Char} {u : Char} (mem : u ∈ pascalChars cs) :
    isSeparator u = false := by
  rw [pascalChars_eq] at mem
  obtain ⟨word, inside, mem⟩ := List.mem_flatMap.mp mem
  exact isSeparator_of_mem_capitalize (isWord_of_mem_splitWords inside).plain mem

/-- What begins with its own upper case is kept. -/
theorem capitalize_of_head {cs : List Char} (own : ∀ c ∈ cs.head?, upperChar c = [c]) :
    capitalize cs = cs := by
  cases cs with
  | nil => rfl
  | cons c rest => rw [capitalize, own c rfl, List.singleton_append]

theorem upperChar_of_head_pascalChars {cs : List Char} :
    ∀ u ∈ (pascalChars cs).head?, upperChar u = [u] := by
  intro u head
  rw [pascalChars_eq] at head
  cases words : splitWords cs with
  | nil =>
    rw [words] at head
    cases head
  | cons word others =>
    have own : IsWord word := isWord_of_mem_splitWords (words ▸ List.mem_cons_self)
    obtain ⟨c, rest, rfl⟩ := List.exists_cons_of_ne_nil own.filled
    rw [words, List.flatMap_cons, capitalize, List.append_assoc,
      List.head?_append_of_ne_nil _ (upperChar_ne_nil c)] at head
    exact upperChar_of_mem_upperChar (List.mem_of_mem_head? head)

theorem pascalChars_pascalChars (cs : List Char) :
    pascalChars (pascalChars cs) = pascalChars cs := by
  have plain : (pascalChars cs).any isSeparator = false := by
    rw [List.any_eq_false]
    exact fun u mem => Bool.eq_false_iff.mp (isSeparator_of_mem_pascalChars mem)
  rw [pascalChars, plain]
  exact capitalize_of_head upperChar_of_head_pascalChars

theorem pascalChars_spread {words gaps : List (List Char)} {before : List Char}
    (each : ∀ word ∈ words, IsWord word) (same : gaps.length = words.length)
    (between : AreGaps gaps) (leading : ∀ c ∈ before, isSeparator c = true) :
    pascalChars (before ++ spread words gaps) = words.flatMap capitalize := by
  rw [pascalChars_eq, splitWords_gap leading, splitWords_spread each same between]

/-- The rendered spelling of words that are parted by capitals only. -/
theorem pascalChars_camel {first : List Char} {rest : List (List Char)} (own : IsWord first)
    (each : ∀ word ∈ rest, IsWord word) :
    pascalChars (first ++ rest.flatMap capitalize) = (first :: rest).flatMap capitalize := by
  have plain : ∀ c ∈ first ++ rest.flatMap capitalize, isSeparator c = false := by
    intro c mem
    rcases List.mem_append.mp mem with here | later
    · exact own.plain c here
    · obtain ⟨word, inside, mem⟩ := List.mem_flatMap.mp later
      exact isSeparator_of_mem_capitalize (each word inside).plain mem
  have whole : IsWord (first ++ rest.flatMap capitalize) :=
    ⟨List.append_ne_nil_of_left_ne_nil own.filled _, plain⟩
  rw [pascalChars_eq, splitWords_word whole, List.flatMap_singleton, List.flatMap_cons]
  obtain ⟨c, cs, rfl⟩ := List.exists_cons_of_ne_nil own.filled
  exact (List.append_assoc _ cs _).symm

/-! ## Keys -/

/-- A text with its first character in upper case. -/
def upperFirst (word : String) : String :=
  upper (String.ofList (word.toList.take 1)) ++ String.ofList (word.toList.drop 1)

theorem toList_upperFirst (word : String) : (upperFirst word).toList = capitalize word.toList := by
  rw [upperFirst, upper, String.toList_append, String.toList_ofList, String.toList_ofList,
    String.toList_ofList]
  cases word.toList with
  | nil => rfl
  | cons c rest =>
    show [c].flatMap upperChar ++ rest = upperChar c ++ rest
    rw [List.flatMap_singleton]

theorem toList_join_upperFirst (words : List String) :
    (String.join (words.map upperFirst)).toList = (words.map String.toList).flatMap capitalize := by
  rw [String.toList_join, List.flatMap_map, List.flatMap_map]
  exact List.flatMap_congr fun word _ => toList_upperFirst word

theorem toList_join_zipWith (words gaps : List String) :
    (String.join (List.zipWith (· ++ ·) words gaps)).toList =
      spread (words.map String.toList) (gaps.map String.toList) := by
  rw [String.toList_join, spread, List.flatMap_def, List.map_zipWith, List.zipWith_map]
  simp only [String.toList_append]

/-- Words that a text joins are followed by it, but for the last. -/
theorem intercalate_eq_spread (text first : List Char) (rest : List (List Char)) :
    text.intercalate (first :: rest) =
      spread (first :: rest) (List.replicate rest.length text ++ [[]]) := by
  induction rest generalizing first with
  | nil => simp [spread]
  | cons word rest ih =>
    rw [List.intercalate_cons_cons, ih word, List.length_cons, List.replicate_succ]
    rfl

theorem areGaps_replicate {c : Char} (separates : isSeparator c = true) (count : Nat) :
    AreGaps (List.replicate count [c] ++ [[]]) where
  separate gap mem := by
    rcases List.mem_append.mp mem with inner | last
    · rw [List.eq_of_mem_replicate inner]
      exact List.forall_mem_singleton.mpr separates
    · rw [List.mem_singleton.mp last]
      nofun
  part gap mem := by
    rw [List.dropLast_concat] at mem
    rw [List.eq_of_mem_replicate mem]
    exact List.cons_ne_nil _ _

/-- The same words have one rendered spelling, the words with their first characters in upper case:
whatever separators stand before, between and after them, and where each after the first begins in
upper case and there are no separators. A rendered spelling has no separators, and is its own. -/
theorem pascalCase_spellings :
    (∀ (first : String) (rest : List String), (∀ word ∈ first :: rest, IsWord word.toList) →
      let rendered := String.join ((first :: rest).map upperFirst)
      (∀ (before : String) (gaps : List String), gaps.length = rest.length + 1 →
        AreGaps (gaps.map String.toList) → (∀ c ∈ before.toList, isSeparator c = true) →
        pascalCase (before ++ String.join (List.zipWith (· ++ ·) (first :: rest) gaps)) =
          rendered) ∧
      (∀ c, isSeparator c = true →
        pascalCase ((String.singleton c).intercalate (first :: rest)) = rendered) ∧
      pascalCase (first ++ String.join (rest.map upperFirst)) = rendered) ∧
    ∀ key, '_' ∉ (pascalCase key).toList ∧ '-' ∉ (pascalCase key).toList ∧
      pascalCase (pascalCase key) = pascalCase key := by
  constructor
  · intro first rest each rendered
    have each : ∀ word ∈ (first :: rest).map String.toList, IsWord word :=
      List.forall_mem_map.mpr each
    refine ⟨fun before gaps same between leading => ?_, fun c separates => ?_, ?_⟩
    · rw [pascalCase, ← String.toList_inj, String.toList_ofList, String.toList_append,
        toList_join_zipWith, toList_join_upperFirst]
      exact pascalChars_spread each (by simpa using same) between leading
    · rw [pascalCase, ← String.toList_inj, String.toList_ofList, String.toList_intercalate,
        toList_join_upperFirst, String.toList_singleton, List.map_cons, intercalate_eq_spread]
      have leading : ∀ c ∈ [], isSeparator c = true := List.forall_mem_nil _
      exact pascalChars_spread each (by simp) (areGaps_replicate separates _) leading
    · rw [pascalCase, ← String.toList_inj, String.toList_ofList, String.toList_append,
        toList_join_upperFirst, toList_join_upperFirst]
      obtain ⟨own, others⟩ := List.forall_mem_cons.mp each
      exact pascalChars_camel own others
  · intro key
    have plain : ∀ u ∈ (pascalCase key).toList, isSeparator u = false := by
      rw [pascalCase, String.toList_ofList]
      exact fun u => isSeparator_of_mem_pascalChars
    refine ⟨fun mem => ?_, fun mem => ?_, ?_⟩
    · cases plain _ mem
    · cases plain _ mem
    · rw [pascalCase, pascalCase, String.toList_ofList, pascalChars_pascalChars]

/-- The words of a key with separators all around, one of them with a longer upper case. -/
theorem pascalCase_spellings_size :
    (∀ word ∈ ["ßa", "http", "Size"], IsWord word.toList) ∧
      AreGaps (["_-", "--", "_"].map String.toList) ∧
      (∀ c ∈ "__".toList, isSeparator c = true) ∧ isSeparator '-' = true ∧
      pascalCase "__ßa_-http--Size_" = "SSaHttpSize" ∧ pascalCase "ßa-http-Size" = "SSaHttpSize" ∧
      pascalCase "ßaHttpSize" = "SSaHttpSize" := by
  have each : ∀ word ∈ ["ßa", "http", "Size"], IsWord word.toList := by
    simp only [List.forall_mem_cons]
    exact ⟨⟨nofun, by simp [isSeparator]⟩, ⟨nofun, by simp [isSeparator]⟩,
      ⟨nofun, by simp [isSeparator]⟩, nofun⟩
  have between : AreGaps (["_-", "--", "_"].map String.toList) :=
    ⟨by simp [isSeparator], by simp⟩
  have leading : ∀ c ∈ "__".toList, isSeparator c = true := by simp [isSeparator]
  obtain ⟨spellings, -⟩ := pascalCase_spellings
  obtain ⟨mixed, joined, camel⟩ := spellings "ßa" ["http", "Size"] each
  refine ⟨each, between, leading, rfl, ?_, ?_, ?_⟩
  · exact mixed "__" ["_-", "--", "_"] rfl between leading
  · exact joined '-' rfl
  · exact camel

end Infra.Text
