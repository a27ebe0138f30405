import Infra.Discovery.Naming
import Infra.Proofs.Store.Names

/-!
# Texts under new names

* `Store.Shows s v w` : the written form of `v` has that of `w` in it;
* `SameButNames.shown`, `SameButNames.stepText` : the text of a value changes only where a reference
  that it shows has another name.
-/

namespace Infra
namespace Store

/-- The written form of a value has that of another in it: a sequence shows its items, a mapping its
keys and values. -/
inductive Shows (s : Store) : Value → Value → Prop
  | self {v : Value} : Shows s v v
  | item {id : Nat} {v w : Value} : v ∈ (s.sequence id).items → Shows s v w →
      Shows s (.sequence id) w
  | key {id : Nat} {k v w : Value} : (k, v) ∈ s.mapping id → Shows s k w → Shows s (.mapping id) w
  | value {id : Nat} {k v w : Value} : (k, v) ∈ s.mapping id → Shows s v w →
      Shows s (.mapping id) w

variable {s t : Store}

/-- A text shows nothing but itself. -/
theorem Shows.eq_of_text {text : String} {w : Value} (h : s.Shows (.text text) w) :
    w = .text text := by
  cases h
  rfl

theorem writtenInside_sequence (around : List Value) (depth id : Nat) :
    s.writtenInside around (depth + 1) (.sequence id) =
      if around.contains (.sequence id) then (s.sequence id).shape.ellipsis
      else (s.sequence id).shape.written
        ((s.sequence id).items.map (s.writtenInside (.sequence id :: around) depth)) := rfl

theorem writtenInside_mapping (around : List Value) (depth id : Nat) :
    s.writtenInside around (depth + 1) (.mapping id) =
      if around.contains (.mapping id) then "\x7b...\x7d"
      else bracketed "\x7b" "\x7d" ((s.mapping id).map fun entry =>
        s.writtenInside (.mapping id :: around) depth entry.1 ++ ": "
          ++ s.writtenInside (.mapping id :: around) depth entry.2) := rfl

namespace SameButNames

theorem containerCount (same : SameButNames s t) : t.containerCount = s.containerCount := by
  unfold Store.containerCount
  rw [same.sequences, same.mappings, same.entityCount]

/-- No more than names of references differ. -/
theorem writtenInside (same : SameButNames s t) (entities : ∀ id, t.entity id = s.entity id)
    {v : Value} (refs : ∀ ref, s.Shows v (.reference ref) → t.reference ref = s.reference ref)
    (around : List Value) (depth : Nat) :
    t.writtenInside around depth v = s.writtenInside around depth v := by
  -- Each level of depth goes one container down.
  induction depth generalizing around v with
  | zero => rfl
  | succ depth ih =>
    cases v with
    | sequence id =>
      have items : (s.sequence id).items.map (t.writtenInside (.sequence id :: around) depth) =
          (s.sequence id).items.map (s.writtenInside (.sequence id :: around) depth) := by
        apply List.map_congr_left
        intro item mem
        exact ih (fun ref shows => refs ref (.item mem shows)) _
      rw [writtenInside_sequence, writtenInside_sequence, same.sequence, items]
    | mapping id =>
      have entries : (s.mapping id).map (fun entry =>
            t.writtenInside (.mapping id :: around) depth entry.1 ++ ": "
              ++ t.writtenInside (.mapping id :: around) depth entry.2) =
          (s.mapping id).map fun entry =>
            s.writtenInside (.mapping id :: around) depth entry.1 ++ ": "
              ++ s.writtenInside (.mapping id :: around) depth entry.2 := by
        apply List.map_congr_left
        intro entry mem
        rw [ih (fun ref shows => refs ref (.key mem shows)) _,
          ih (fun ref shows => refs ref (.value mem shows)) _]
      rw [writtenInside_mapping, writtenInside_mapping, same.mapping, entries]
    | entity id =>
      show t.entityText id = s.entityText id
      unfold entityText
      rw [entities]
    | reference id =>
      show t.referenceText id = s.referenceText id
      unfold referenceText
      rw [refs id .self]
    | output id =>
      show t.outputText id = s.outputText id
      unfold outputText Store.output
      rw [same.outputs]
    | intrinsic id =>
      show t.intrinsicText id = s.intrinsicText id
      unfold intrinsicText Store.intrinsic
      rw [same.intrinsics]
    | constructor id =>
      show _ ++ (t.constructor id).label ++ _ = _ ++ (s.constructor id).label ++ _
      unfold Store.constructor
      rw [same.constructors]
    | definition id =>
      show t.definitionText id = s.definitionText id
      unfold definitionText Store.definition
      rw [same.definitions]
    | composite id =>
      show t.compositeText id = s.compositeText id
      unfold compositeText Store.composite Store.definition
      rw [same.composites, same.definitions]
    | _ => rfl

theorem shown (same : SameButNames s t) (entities : ∀ id, t.entity id = s.entity id) {v : Value}
    (refs : ∀ ref, s.Shows v (.reference ref) → t.reference ref = s.reference ref) :
    t.shown v = s.shown v := by
  have written : t.written v = s.written v := by
    unfold Store.written
    rw [same.containerCount]
    exact same.writtenInside entities refs _ _
  unfold Store.shown
  cases v with
  | intrinsic id => simp only [Store.intrinsic, same.intrinsics, written]
  | text _ => rfl
  | path _ => rfl
  | _ => exact written

theorem stepText (same : SameButNames s t) (entities : ∀ id, t.entity id = s.entity id) {step : Step}
    (refs : ∀ key, step = .key key → ∀ ref, s.Shows key (.reference ref) →
      t.reference ref = s.reference ref) : t.stepText step = s.stepText step := by
  cases step with
  | key v =>
    show "." ++ t.shown v = "." ++ s.shown v
    rw [same.shown entities (refs v rfl)]
  | index n => rfl

end SameButNames
end Store
end Infra
