import Infra.Store.Key
import Infra.Proofs.Store.Accessors

/-!
# Keys in a store that grows

* `Store.Grows s t` : `t` has the sequences of `s`, and all further ones are lists;
* `Store.sameKeyTo_of_isKeyTo` : to look deeper than a key reaches makes no difference;
* `Grows.isKey`, `Grows.sameKey` : so keys stay keys, and are told apart as before;
* `Store.Known s v` : the value is no sequence that is still to be made.
-/

namespace Infra.Store

variable {s t u : Store}

/-- The later store has the sequences of the earlier one, and all further ones are lists. -/
structure Grows (s t : Store) : Prop where
  size : s.sequences.size ≤ t.sequences.size
  count : s.containerCount ≤ t.containerCount
  kept : ∀ id < s.sequences.size, t.sequence id = s.sequence id
  lists : ∀ id, s.sequences.size ≤ id → (t.sequence id).shape = .list

/-- A sequence that was never made counts as a list. -/
theorem shape_of_size_le {id : Nat} (unmade : s.sequences.size ≤ id) :
    (s.sequence id).shape = .list := by
  unfold sequence
  rw [get_eq_default unmade]
  rfl

theorem Grows.refl (s : Store) : Grows s s :=
  ⟨Nat.le_refl _, Nat.le_refl _, fun _ _ => rfl, fun _ => shape_of_size_le⟩

theorem Grows.trans (h : Grows s t) (k : Grows t u) : Grows s u where
  size := Nat.le_trans h.size k.size
  count := Nat.le_trans h.count k.count
  kept id lt := (k.kept id (Nat.lt_of_lt_of_le lt h.size)).trans (h.kept id lt)
  lists id le := by
    by_cases lt : id < t.sequences.size
    · rw [k.kept id lt]
      exact h.lists id le
    · exact k.lists id (Nat.le_of_not_lt lt)

/-- Where the sequences of a number differ, both are lists. -/
theorem Grows.sequence (h : Grows s t) (id : Nat) : t.sequence id = s.sequence id ∨
    (t.sequence id).shape = .list ∧ (s.sequence id).shape = .list := by
  by_cases lt : id < s.sequences.size
  · exact .inl (h.kept id lt)
  · exact .inr ⟨h.lists id (Nat.le_of_not_lt lt), shape_of_size_le (Nat.le_of_not_lt lt)⟩

theorem grows_newSequence (s : Store) (items : List Value) :
    Grows s (s.newSequence .list items).2 where
  size := by simp [newSequence]
  count := by
    simp only [containerCount, newSequence, Table.size_push]
    omega
  kept id lt := Table.get_push_of_lt lt _
  lists id le := by
    rcases Nat.eq_or_lt_of_le le with rfl | lt
    · exact congrArg Sequence.shape (Table.get_push_size _ _)
    · apply shape_of_size_le
      rw [newSequence, Table.size_push]
      exact lt

/-! ## Keys -/

theorem Grows.isKeyTo (h : Grows s t) (depth : Nat) (v : Value) :
    t.isKeyTo depth v = s.isKeyTo depth v := by
  induction depth generalizing v with
  | zero => rfl
  | succ depth ih =>
    cases v with
    | sequence id =>
      unfold Store.isKeyTo
      dsimp only
      rcases h.sequence id with same | ⟨list, list'⟩
      · rw [same, funext ih]
      · rw [list, list']
    | _ => rfl

theorem Grows.sameKeyTo (h : Grows s t) (depth : Nat) (a b : Value) :
    t.sameKeyTo depth a b = s.sameKeyTo depth a b := by
  induction depth generalizing a b with
  | zero => rfl
  | succ depth ih =>
    have inner : t.sameKeyTo depth = s.sameKeyTo depth := funext fun a => funext fun b => ih a b
    cases a with
    | sequence i =>
      cases b with
      | sequence j =>
        unfold Store.sameKeyTo
        dsimp only
        rcases h.sequence i with same | ⟨list, list'⟩
        · rcases h.sequence j with same' | ⟨list, list'⟩
          · rw [same, same', inner]
          · rw [same, list, list']
            cases (s.sequence i).shape <;> rfl
        · rw [list, list']
      | _ => rfl
    | _ => rfl

theorem all_congr_mem {α : Type} {items : List α} {p q : α → Bool}
    (h : ∀ item ∈ items, p item = q item) : items.all p = items.all q := by
  rw [Bool.eq_iff_iff, List.all_eq_true, List.all_eq_true]
  exact forall₂_congr fun item mem => by rw [h item mem]

theorem isKeyTo_of_le {depth deeper : Nat} (le : depth ≤ deeper) {v : Value}
    (key : s.isKeyTo depth v = true) : s.isKeyTo deeper v = true := by
  induction depth generalizing deeper v with
  | zero => cases key
  | succ depth ih =>
    cases deeper with
    | zero => cases le
    | succ deeper =>
      cases v with
      | sequence id =>
        unfold Store.isKeyTo at key ⊢
        dsimp only at key ⊢
        have items : (s.sequence id).items.all (s.isKeyTo depth) = true →
            (s.sequence id).items.all (s.isKeyTo deeper) = true := fun all =>
          List.all_eq_true.mpr fun item mem =>
            ih (Nat.le_of_succ_le_succ le) (List.all_eq_true.mp all item mem)
        cases shape : (s.sequence id).shape <;> rw [shape] at key
        · cases key
        · exact items key
        · cases key
        · exact items key
      | mapping id => cases key
      | _ => rfl

/-- To look deeper than a key reaches makes no difference. -/
theorem sameKeyTo_of_isKeyTo {depth deeper : Nat} (le : depth ≤ deeper) {a : Value}
    (key : s.isKeyTo depth a = true) (b : Value) :
    s.sameKeyTo deeper a b = s.sameKeyTo depth a b := by
  induction depth generalizing deeper a b with
  | zero => cases key
  | succ depth ih =>
    cases deeper with
    | zero => cases le
    | succ deeper =>
      cases a with
      | sequence i =>
        cases b with
        | sequence j =>
          unfold Store.isKeyTo at key
          unfold Store.sameKeyTo
          dsimp only at key ⊢
          have inner : (s.sequence i).items.all (s.isKeyTo depth) = true →
              ∀ item ∈ (s.sequence i).items, s.sameKeyTo deeper item = s.sameKeyTo depth item :=
            fun all item mem => funext fun other =>
              ih (Nat.le_of_succ_le_succ le) (List.all_eq_true.mp all item mem) other
          cases shape : (s.sequence i).shape with
          | tuple =>
            rw [shape] at key
            cases (s.sequence j).shape with
            | tuple =>
              have all : ((s.sequence i).items.zip (s.sequence j).items).all
                    (fun pair => s.sameKeyTo deeper pair.1 pair.2) =
                  ((s.sequence i).items.zip (s.sequence j).items).all
                    (fun pair => s.sameKeyTo depth pair.1 pair.2) :=
                all_congr_mem fun pair mem => by rw [inner key pair.1 (List.of_mem_zip mem).1]
              dsimp only
              rw [all]
            | _ => rfl
          | frozenSet =>
            rw [shape] at key
            cases (s.sequence j).shape with
            | frozenSet =>
              have all : (s.sequence i).items.all
                    (fun item => (s.sequence j).items.any (s.sameKeyTo deeper item)) =
                  (s.sequence i).items.all
                    (fun item => (s.sequence j).items.any (s.sameKeyTo depth item)) :=
                all_congr_mem fun item mem => by rw [inner key item mem]
              dsimp only
              rw [all]
            | _ => rfl
          | _ => rfl
        | _ => rfl
      | _ => rfl

theorem Grows.isKey (h : Grows s t) {v : Value} (key : s.isKey v = true) : t.isKey v = true := by
  unfold Store.isKey at key ⊢
  rw [h.isKeyTo]
  exact isKeyTo_of_le (Nat.succ_le_succ h.count) key

theorem Grows.sameKey (h : Grows s t) {a : Value} (key : s.isKey a = true) (b : Value) :
    t.sameKey a b = s.sameKey a b := by
  unfold Store.sameKey
  rw [h.sameKeyTo]
  exact sameKeyTo_of_isKeyTo (Nat.succ_le_succ h.count) key b

/-! ## Values -/

/-- The value is no sequence that is still to be made. -/
def Known (s : Store) : Value → Prop
  | .sequence id => id < s.sequences.size
  | _ => True

theorem Known.grows {v : Value} (h : s.Known v) (grows : Grows s t) : t.Known v := by
  cases v with
  | sequence id => exact Nat.lt_of_lt_of_le h grows.size
  | _ => exact True.intro

theorem sameScalar_self (v : Value) : v.sameScalar v = true := by
  unfold Value.sameScalar
  cases v.number? <;> simp

theorem sameKey_self (s : Store) (v : Value) : s.sameKey v v = true := by
  unfold sameKey sameKeyTo
  rw [sameScalar_self, Bool.true_or]

/-- A text is the same key as itself alone. -/
theorem sameKey_text (s : Store) (text : String) (v : Value) :
    s.sameKey (.text text) v = decide (Value.text text = v) := by
  unfold sameKey sameKeyTo
  cases v with
  | text other =>
    rw [Bool.eq_iff_iff]
    simp [Value.sameScalar, Value.number?]
  | _ => simp [Value.sameScalar, Value.number?]

end Infra.Store
