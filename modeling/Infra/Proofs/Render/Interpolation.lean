import Infra.Expr.Evaluation
import Infra.Proofs.Template.Formed

/-!
# Interpolated texts are faithful

An interpolated text is made of pieces: texts that follow each other become one part, and one part
stands between two values. To weave the parts with the texts of the values is to join the texts of
the pieces in their order.

* `Eval.length_splitPieces` : there is one part more than there are values, so that no value is left
  out;
* `Eval.weave_splitPieces` : the parts woven with the texts of the values;
* `Store.pieceText` : the text of a piece; `Store.valueText_cases` : a value has this text, or none;
* `Store.interpolate_of_texts` : pieces that have texts are joined to the texts of all of them;
  `Store.interpolate_of_noText` : if one has none, they are refused;
* `Store.run_evalTo_interpolation` : evaluation makes an interpolated text of its pieces;
* `Store.interpolation_spec` : the form that it has at any later time.
-/

namespace Infra

/-! ## Pieces -/

namespace Eval

theorem splitPieces_text {text part : String} {rest : List Value} {others : List String}
    (parts : (splitPieces rest).1 = part :: others) :
    splitPieces (.text text :: rest) = ((text ++ part) :: others, (splitPieces rest).2) := by
  rw [splitPieces]
  generalize splitPieces rest = split at parts ⊢
  obtain ⟨_, values⟩ := split
  cases parts
  rfl

theorem splitPieces_value {v : Value} (other : ∀ text, v ≠ .text text) (rest : List Value) :
    splitPieces (v :: rest) = ("" :: (splitPieces rest).1, v :: (splitPieces rest).2) := by
  cases v with
  | text text => exact absurd rfl (other text)
  | _ => rfl

theorem length_splitPieces (pieces : List Value) :
    (splitPieces pieces).1.length = (splitPieces pieces).2.length + 1 := by
  induction pieces with
  | nil => rfl
  | cons piece rest ih =>
    by_cases text : ∃ text, piece = .text text
    · obtain ⟨text, rfl⟩ := text
      obtain ⟨part, others, parts⟩ := List.exists_cons_of_length_eq_add_one ih
      rw [splitPieces_text parts, ← ih, parts]
      rfl
    · rw [splitPieces_value (not_exists.mp text), List.length_cons, List.length_cons, ih]

theorem mem_values_splitPieces {v : Value} {pieces : List Value} :
    v ∈ (splitPieces pieces).2 ↔ v ∈ pieces ∧ ∀ text, v ≠ .text text := by
  induction pieces with
  | nil => simp [splitPieces]
  | cons piece rest ih =>
    by_cases text : ∃ text, piece = .text text
    · obtain ⟨text, rfl⟩ := text
      obtain ⟨part, others, parts⟩ :=
        List.exists_cons_of_length_eq_add_one (length_splitPieces rest)
      rw [splitPieces_text parts, ih, List.mem_cons]
      constructor
      · exact fun ⟨mem, other⟩ => ⟨.inr mem, other⟩
      · exact fun ⟨mem, other⟩ => ⟨mem.resolve_left (other text), other⟩
    · have other := not_exists.mp text
      rw [splitPieces_value other, List.mem_cons, List.mem_cons, ih]
      constructor
      · rintro (rfl | ⟨mem, own⟩)
        · exact ⟨.inl rfl, other⟩
        · exact ⟨.inr mem, own⟩
      · exact fun ⟨mem, own⟩ => mem.imp id fun later => ⟨later, own⟩

theorem weave_append (text part : String) (parts texts : List String) :
    weave ((text ++ part) :: parts) texts = text ++ weave (part :: parts) texts := by
  cases texts <;> simp only [weave, String.append_assoc]

/-- The parts woven with the texts of the values are the texts of the pieces, in their order. -/
theorem weave_splitPieces {f : Value → String} (own : ∀ text, f (.text text) = text)
    (pieces : List Value) : weave (splitPieces pieces).1 ((splitPieces pieces).2.map f) =
      String.join (pieces.map f) := by
  induction pieces with
  | nil => rfl
  | cons piece rest ih =>
    rw [List.map_cons, String.join_cons, ← ih]
    by_cases text : ∃ text, piece = .text text
    · obtain ⟨text, rfl⟩ := text
      obtain ⟨part, others, parts⟩ :=
        List.exists_cons_of_length_eq_add_one (length_splitPieces rest)
      rw [splitPieces_text parts, weave_append, own, parts]
    · rw [splitPieces_value (not_exists.mp text), List.map_cons, weave, String.empty_append]

end Eval

namespace Store

variable {s : Store}

/-! ## Texts of pieces -/

/-- The text of a piece: a text is its own, an attribute of a named entity and what a
pseudo-parameter refers to stand between braces after a dollar sign, and any other value has the
text that it is shown by. -/
def pieceText (s : Store) : Value → String
  | .text text => text
  | .reference ref =>
    "$\x7b" ++ (s.reference ref).name.getD "" ++ "." ++ (s.reference ref).attr ++ "\x7d"
  | .intrinsic i =>
    match s.intrinsic i with
    | .pseudo ref => "$\x7b" ++ ref ++ "\x7d"
    | .interpolation .. => s.shown (.intrinsic i)
  | v => s.shown v

/-- The interpolated texts among the values do not show themselves. -/
def Nested (s : Store) (v : Value) : Prop :=
  ∀ i parts values, v = .intrinsic i → s.intrinsic i = .interpolation parts values → s.Acyclic v

/-- A value has the text of a piece, or it is one without a text. -/
theorem valueText_cases {v : Value} (nested : s.Nested v) :
    ¬ s.NoText v ∧ s.valueText .template v = .ok (s.pieceText v) ∨
      s.NoText v ∧ ∃ message,
        s.valueText .template v = .error (.failed (.serialization message)) := by
  unfold valueText
  cases v with
  | reference ref =>
    cases name : (s.reference ref).name with
    | none => exact .inr ⟨.reference name, _, by rw [valueTextTo]; simp only [name]; rfl⟩
    | some text =>
      refine .inl ⟨fun noText => ?_, ?_⟩
      · cases noText with
        | reference none => cases none.symm.trans name
      · rw [valueTextTo, pieceText]
        simp only [name]
        rfl
  | intrinsic i =>
    cases form : s.intrinsic i with
    | pseudo ref =>
      refine .inl ⟨fun noText => ?_, ?_⟩
      · cases noText with
        | interpolation other _ _ => cases form.symm.trans other
      · rw [valueTextTo, pieceText]
        simp only [form]
        rfl
    | interpolation parts values =>
      have acyclic := nested i parts values rfl form
      cases result : s.valueTextTo .template (s.intrinsics.size + 2) (.intrinsic i) with
      | error fault =>
        obtain ⟨⟨message, rfl⟩, noText⟩ := noText_of_valueTextTo acyclic (.nil s _ _)
          (by rw [List.length_nil]; omega) result
        exact .inr ⟨noText, message, rfl⟩
      | ok text =>
        refine .inl ⟨fun noText => noText.valueTextTo_ne_ok _ _ _ result, ?_⟩
        rw [valueTextTo] at result
        simp only [form] at result
        obtain ⟨_, -, eq⟩ := bind_eq_ok_iff.mp result
        rw [pieceText, form, ← eq]
  | entity e => exact .inr ⟨.entity, _, rfl⟩
  | _ =>
    refine .inl ⟨fun noText => ?_, rfl⟩
    cases noText

/-! ## The form of an interpolated text -/

section Pieces

variable {pieces : List Value}

theorem take_values (pieces : List Value) :
    (Eval.splitPieces pieces).2.take (Eval.splitPieces pieces).1.length =
      (Eval.splitPieces pieces).2 :=
  List.take_of_length_le (by rw [Eval.length_splitPieces]; omega)

theorem interpolate_of_texts (nested : ∀ piece ∈ pieces, s.Nested piece)
    (texts : ∀ piece ∈ pieces, ¬ s.NoText piece) :
    s.interpolate .template (Eval.splitPieces pieces).1 (Eval.splitPieces pieces).2 =
      .ok (String.join (pieces.map s.pieceText)) := by
  have shown : (Eval.splitPieces pieces).2.mapM (s.valueText .template) =
      .ok ((Eval.splitPieces pieces).2.map s.pieceText) := by
    rw [mapM_eq_ok_iff, List.forall₂_map_right_iff, List.forall₂_same]
    intro v mem
    obtain ⟨inside, -⟩ := Eval.mem_values_splitPieces.mp mem
    rcases valueText_cases (nested v inside) with ⟨-, text⟩ | ⟨noText, -⟩
    · exact text
    · exact absurd noText (texts v inside)
  rw [interpolate, take_values, shown, ← Eval.weave_splitPieces (f := s.pieceText) fun _ => rfl]
  rfl

theorem interpolate_of_noText (nested : ∀ piece ∈ pieces, s.Nested piece) {piece : Value}
    (mem : piece ∈ pieces) (noText : s.NoText piece) : ∃ message,
      s.interpolate .template (Eval.splitPieces pieces).1 (Eval.splitPieces pieces).2 =
        .error (.failed (.serialization message)) := by
  have value : piece ∈ (Eval.splitPieces pieces).2 :=
    Eval.mem_values_splitPieces.mpr ⟨mem, by rintro text rfl; cases noText⟩
  rw [interpolate, take_values]
  cases result : (Eval.splitPieces pieces).2.mapM (s.valueText .template) with
  | ok texts =>
    obtain ⟨text, -, shown⟩ := exists_right_of_mem (mapM_eq_ok_iff.mp result) value
    exact absurd shown (noText.valueTextTo_ne_ok _ _ _)
  | error fault =>
    obtain ⟨v, inside, failed⟩ := exists_of_mapM_eq_error result
    obtain ⟨known, -⟩ := Eval.mem_values_splitPieces.mp inside
    rcases valueText_cases (nested v known) with ⟨-, text⟩ | ⟨-, message, fails⟩
    · cases failed.symm.trans text
    · cases failed.symm.trans fails
      exact ⟨message, rfl⟩

end Pieces

/-- Evaluation makes an interpolated text of the values of its pieces. -/
theorem run_evalTo_interpolation {scope : Scope} {depth : Nat} {pieces : List Expr}
    {values : List Value} {u : Store}
    (given : (pieces.mapM (Expr.evalTo scope depth)).run s = .ok values u) :
    ∃ i t, (Expr.evalTo scope (depth + 1) (.interpolation pieces)).run s = .ok (.intrinsic i) t ∧
      t.intrinsic i =
        .interpolation (Eval.splitPieces values).1 (Eval.splitPieces values).2 := by
  refine ⟨_, (u.newIntrinsic _).2, ?_, Table.get_push_size _ _⟩
  rw [Expr.evalTo]
  exact run_bind_eq_ok_iff.mpr ⟨values, u, given, rfl⟩

/-- Pieces that have values make an interpolated text, with one part more than it has values. Its
form at any later time joins the texts that the values of its pieces then have, all of them and in
their order, whatever texts or values stand next to each other. If a piece is a reference without a
name or an entity, or an interpolated text that shows one, it has no form. -/
theorem interpolation_spec {scope : Scope} {depth : Nat} {pieces : List Expr}
    {values : List Value} {u : Store}
    (given : (pieces.mapM (Expr.evalTo scope depth)).run s = .ok values u) :
    ∃ i t parts shown,
      (Expr.evalTo scope (depth + 1) (.interpolation pieces)).run s = .ok (.intrinsic i) t ∧
      t.intrinsic i = .interpolation parts shown ∧ parts.length = shown.length + 1 ∧
      ∀ later : Store, later.intrinsic i = t.intrinsic i →
        (∀ value ∈ values, later.Nested value) →
        ((∀ value ∈ values, ¬ later.NoText value) → later.intrinsicForm i =
          .ok (.record [("Fn::Sub", .text (String.join (values.map later.pieceText)))])) ∧
        ((∃ value ∈ values, later.NoText value) →
          ∃ message, later.intrinsicForm i = .error (.failed (.serialization message))) := by
  obtain ⟨i, t, evaluated, made⟩ := run_evalTo_interpolation given
  refine ⟨i, t, _, _, evaluated, made, Eval.length_splitPieces values,
    fun later kept nested => ⟨fun texts => ?_, fun ⟨value, mem, noText⟩ => ?_⟩⟩
  · rw [intrinsicForm, kept, made]
    exact bind_eq_ok_iff.mpr ⟨_, interpolate_of_texts nested texts, rfl⟩
  · obtain ⟨message, failed⟩ := interpolate_of_noText nested mem noText
    refine ⟨message, ?_⟩
    rw [intrinsicForm, kept, made]
    exact bind_eq_error_iff.mpr (.inl failed)

/-- A store with a reference that has no name yet. -/
def logsStore : Store := (initial.newReference ⟨1, "template", "Arn", none⟩).2

/-- Texts that follow each other, a pseudo-parameter, and values that follow each other. -/
def logsPieces : List Expr :=
  [.literal (.text "arn:"), .standingPseudo "partition", .literal (.text ":"),
    .literal (.text "s3:"), .variable "arn", .literal (.int 443), .literal (.bool true)]

/-- The form of these pieces before and after the reference is given its name. -/
theorem interpolation_spec_logs :
    ∃ t, (Expr.evalTo ⟨[], [("arn", .reference 0)]⟩ 2 (.interpolation logsPieces)).run logsStore =
        .ok (.intrinsic 4) t ∧
      (∃ message, t.intrinsicForm 4 = .error (.failed (.serialization message))) ∧
      (t.nameReference 0 "logs").intrinsicForm 4 = .ok (.record
        [("Fn::Sub", .text "arn:$\x7bTemplate::Partition\x7d:s3:$\x7blogs.Arn\x7d443True")]) := by
  have given : (logsPieces.mapM (Expr.evalTo ⟨[], [("arn", .reference 0)]⟩ 1)).run logsStore =
      .ok [.text "arn:", .intrinsic 3, .text ":", .text "s3:", .reference 0, .int 443, .bool true]
        logsStore := rfl
  obtain ⟨i, t, parts, shown, evaluated, -, -, form⟩ := interpolation_spec given
  cases evaluated
  have nested (later : Store) (pseudo : later.intrinsic 3 = .pseudo "Template::Partition") :
      ∀ value ∈ [Value.text "arn:", .intrinsic 3, .text ":", .text "s3:", .reference 0, .int 443,
        .bool true], later.Nested value := by
    intro value mem i parts values eq made
    subst eq
    obtain rfl : i = 3 := by simpa using mem
    cases made.symm.trans pseudo
  refine ⟨_, rfl, (form _ rfl (nested _ rfl)).2 ⟨.reference 0, by simp, .reference rfl⟩,
    ((form (nameReference _ 0 "logs") rfl (nested _ rfl)).1 ?_).trans rfl⟩
  intro value mem noText
  cases noText with
  | reference unnamed =>
    obtain rfl : _ = 0 := by simpa using mem
    cases unnamed
  | entity => simp at mem
  | interpolation made _ _ =>
    obtain rfl : _ = 3 := by simpa using mem
    cases made

end Store
end Infra
