import Infra.Expr.Evaluation
import Infra.Proofs.Keeps

/-!
# Properties of the store that evaluation keeps

* `Store.Stable P` : neither a new object nor a change that a program can make takes `P` away;
* `Stable.keeps_construct`, `Stable.keeps_field`, … : the operations on values keep it;
* `Stable.keeps_evalTo` : so does the evaluation of an expression.
-/

namespace Infra

/-- A property of stores that stays whatever object is made and whatever a program changes. -/
structure Store.Stable (P : Store → Prop) : Prop where
  newSequence : ∀ s shape items, P s → P (s.newSequence shape items).2
  newMapping : ∀ s entries, P s → P (s.newMapping entries).2
  newReference : ∀ s r, P s → P (s.newReference r).2
  newOutput : ∀ s o, P s → P (s.newOutput o).2
  newIntrinsic : ∀ s i, P s → P (s.newIntrinsic i).2
  newConstructor : ∀ s c, P s → P (s.newConstructor c).2
  newComposite : ∀ s c, P s → P (s.newComposite c).2
  newDefinition : ∀ s d register, P s → P (s.newDefinition d register).2
  newEntity : ∀ s kind label backend entityType props accessors child, P s →
    P (s.newEntity kind label backend entityType props accessors child).2
  setMapping : ∀ s id entries, P s → P (s.setMapping id entries)
  markMadeBy : ∀ s id constructor, P s → P (s.markMadeBy id constructor)
  setShared : ∀ s id shared, P s → P (s.setShared id shared)

namespace Eval

variable {α : Type} {P : Store → Prop}

theorem keeps_make {f : Store → α × Store} (h : ∀ s, P s → P (f s).2) : Keeps P (make f) := h

theorem keeps_ofExcept (r : Except Fault α) : Keeps P (ofExcept r) := by
  cases r with
  | ok a => exact .pure a
  | error fault => exact .throw fault

/-! ## Values that are only read -/

theorem keeps_items (v : Value) : Keeps P (items v) := by
  refine .bind .get fun s => ?_
  cases v with
  | sequence | mapping | text | bytes => exact .pure _
  | _ => exact .throw _

theorem keeps_names (v : Value) : Keeps P (names v) :=
  .bind (keeps_items v) fun _ => .bind .get fun _ => .pure _

theorem keeps_accessors (declared : Option Value) : Keeps P (accessors declared) := by
  unfold accessors
  split
  · exact .pure _
  · exact .pure _
  · exact .bind .get fun _ => .pure _
  · refine .bind (keeps_items _) fun listed => .bind .get fun s => ?_
    split
    · exact .throw _
    · exact .pure _

/-- The scope of the members of a composite is made by evaluations alone. -/
theorem keeps_enter {evaluate : Scope → Expr → Eval Value} (h : ∀ scope e, Keeps P (evaluate scope e))
    (scope : Scope) (d : Definition) (bound : List (String × Value)) :
    Keeps P (enter evaluate scope d bound) := by
  refine .foldlM (fun inner param _ => ?_) _
  unfold complete
  split
  · exact .bind (h _ _) fun _ => .pure _
  · exact .pure _

end Eval

namespace Store.Stable

open Eval

variable {P : Store → Prop} (stable : Stable P)

include stable

/-! ## Entities -/

theorem keeps_entity (kind : Entity.Kind) (label backend entityType : String)
    (props : List (Value × Value)) (own : List (String × String)) (child : Option Child) :
    Keeps P (Eval.entity kind label backend entityType props own child) :=
  .bind (keeps_make fun s => stable.newEntity s _ _ _ _ _ _ _) fun _ => .pure _

theorem keeps_entityDeclaring (kind : Entity.Kind) (label backend entityType : String)
    (props : List (Value × Value)) (declared : Option Value) :
    Keeps P (entityDeclaring kind label backend entityType props declared) := by
  refine .bind .get fun s => ?_
  split
  · exact stable.keeps_entity _ _ _ _ _ _ _
  · exact .bind (stable.keeps_entity _ _ _ _ _ _ _) fun _ => .throw _

theorem keeps_newConstructor (kind : Entity.Kind) (entityType backend : String)
    (own : List (String × String)) (name : Option String) :
    Keeps P (Eval.newConstructor kind entityType backend own name) :=
  keeps_make fun s => stable.newConstructor s _

theorem keeps_construct (v : Value) (props : Option Value) (keywords : List (String × Value)) :
    Keeps P (construct v props keywords) := by
  refine .bind .get fun s => ?_
  split
  · next id =>
    have finish : ∀ entries : List (Value × Value), Keeps P (do
        let c := s.constructor id
        let made ← make (·.newEntity c.kind c.label c.backend c.entityType entries c.accessors none)
        modify (·.markMadeBy made id)
        pure (Value.entity made)) := fun entries =>
      .bind (keeps_make fun t => stable.newEntity t _ _ _ _ _ _ _) fun made =>
        .bind (.modify fun t => stable.markMadeBy t made id) fun _ => .pure _
    dsimp only
    split
    · exact .throwBind _ _
    · split
      · exact .throwBind _ _
      · split
        · exact .bind (.pure _) fun given => finish _
        · split
          · exact .bind (.pure _) fun given => finish _
          · exact .throwBind _ _
        · split
          · exact .bind (.pure _) fun given => finish _
          · exact .throwBind _ _
        · exact .bind (.pure _) fun given => finish _
  · exact .throw _

/-! ## Fields -/

theorem keeps_constructorField? (c : Constructor) (name : String) :
    Keeps P (constructorField? c name) := by
  unfold constructorField?
  split
  · exact .pure _
  · exact .pure _
  · exact .bind (keeps_make fun s => stable.newMapping s _) fun _ => .pure _
  · exact .pure _

theorem keeps_entityField? (id : Nat) (name : String) : Keeps P (entityField? id name) := by
  refine .bind .get fun s => ?_
  dsimp only
  split
  case h_8 => exact .bind (keeps_make fun t => stable.newMapping t _) fun _ => .pure _
  case h_11 => exact .map (keeps_make fun t => stable.newSequence t _ _)
  case h_13 =>
    split
    · exact stable.keeps_constructorField? _ _
    · exact .pure _
  all_goals exact .pure _

theorem keeps_field (v : Value) (name : String) : Keeps P (field v name) := by
  refine .bind .get fun s => ?_
  split
  · refine .bind (stable.keeps_entityField? _ _) fun found => ?_
    split
    · exact .pure _
    · dsimp only
      split
      · exact .pure _
      · exact .throw _
  · dsimp only
    split
    · exact .map (keeps_make fun t => stable.newMapping t _)
    · exact .pure _
    · split
      · exact .map (keeps_make fun t => stable.newMapping t _)
      · exact .pure _
    · split
      · exact .pure _
      · exact .throw _
  · exact .throw _

theorem keeps_declared (v : Value) (name : String) : Keeps P (declared v name) := by
  refine .bind .get fun s => ?_
  split
  · dsimp only
    split
    · exact .pure _
    · exact .throw _
  · exact .bind (stable.keeps_field _ _) fun _ => .throw _

theorem keeps_prop (v : Value) (key : String) : Keeps P (prop v key) := by
  refine .bind (stable.keeps_field _ _) fun found => ?_
  split
  · refine .bind .get fun s => ?_
    split
    · exact .pure _
    · exact .throw _
  · exact .throw _

theorem keeps_referenceOf (v : Value) (asked : String) : Keeps P (referenceOf v asked) := by
  unfold referenceOf
  split
  · exact .bind .get fun _ => .pure _
  · exact .bind (stable.keeps_field _ _) fun _ => .throw _

/-! ## Composites -/

theorem keeps_withDefaults (v : Value) (defaults : List (String × Value)) :
    Keeps P (withDefaults v defaults) := by
  refine .bind .get fun s => ?_
  dsimp only
  split
  · exact .throwBind _ _
  · split
    · exact keeps_make fun t => stable.newDefinition t _ _
    · exact .bind (stable.keeps_field _ _) fun _ => .throw _

theorem keeps_propagate (v : Value) (shared : List (String × Value)) :
    Keeps P (propagate v shared) := by
  unfold propagate
  dsimp only
  split
  · exact .throwBind _ _
  · split
    case h_1 => exact .bind (.modify fun t => stable.setShared t _ _) fun _ => .pure _
    case h_9 => exact .throw _
    all_goals exact .pure _

/-! ## Expressions -/

/-- The evaluation of an expression keeps a stable property. -/
theorem keeps_evalTo (scope : Scope) (depth : Nat) (e : Expr) : Keeps P (e.evalTo scope depth) := by
  induction depth generalizing scope e with
  | zero => exact .throw _
  | succ depth ih =>
    have each : ∀ es : List Expr, Keeps P (es.mapM (Expr.evalTo scope depth)) := fun es =>
      .mapM fun e _ => ih scope e
    have newMapping : ∀ entries, Keeps P (make (·.newMapping entries)) := fun entries =>
      keeps_make fun s => stable.newMapping s entries
    unfold Expr.evalTo
    extract_lets pairs optional
    have keepsPairs : ∀ entries, Keeps P (pairs entries) := fun entries =>
      .mapM fun entry _ => .bind (ih scope _) fun _ => .pure _
    have keepsOptional : ∀ e?, Keeps P (optional e?) := by
      intro e?
      cases e? with
      | none => exact .pure _
      | some e => exact .map (ih scope e)
    cases e with
    | literal v => exact .pure v
    | sequence shape items =>
      refine .bind (each items) fun vs => ?_
      cases shape with
      | list | tuple => exact keeps_make fun s => stable.newSequence s _ _
      | set | frozenSet =>
        refine .bind .get fun s => ?_
        split
        · exact .throw _
        · exact keeps_make fun t => stable.newSequence t _ _
    | mapping entries =>
      refine .map (.bind (.foldlM (fun kept entry _ => ?_) []) fun kept => newMapping kept)
      refine .bind (ih _ _) fun key => .bind (ih _ _) fun v => .bind .get fun s => ?_
      split
      · exact .pure _
      · exact .throw _
    | resource backend entityType attributes props =>
      exact .bind (keepsOptional attributes) fun declared => .bind (keepsPairs props) fun given =>
        stable.keeps_entityDeclaring _ _ _ _ _ _
    | property backend entityType attributes props =>
      exact .bind (keepsOptional attributes) fun declared => .bind (keepsPairs props) fun given =>
        stable.keeps_entityDeclaring _ _ _ _ _ _
    | resourceType entityType backend attributes name =>
      exact .bind (keepsOptional attributes) fun declared =>
        .bind (keeps_accessors declared) fun own => stable.keeps_newConstructor _ _ _ _ _
    | propertyType entityType backend name => exact stable.keeps_newConstructor _ _ _ _ _
    | construct made props keywords =>
      refine .bind (ih _ _) fun v => .bind (keepsPairs props) fun given =>
        .bind (keepsPairs keywords) fun named => ?_
      split
      · exact stable.keeps_construct _ _ _
      · exact .bind (newMapping _) fun bag => stable.keeps_construct _ _ _
    | parameter type default description =>
      exact .bind (keepsOptional default) fun given => stable.keeps_entity _ _ _ _ _ _ _
    | stack path parameters outputs =>
      refine .bind (keepsPairs parameters) fun given => .bind (keepsOptional outputs) fun listed =>
        .bind ?_ fun outputNames => .bind (newMapping _) fun bag =>
          .bind (newMapping _) fun options => stable.keeps_entity _ _ _ _ _ _ _
      cases listed with
      | none => exact .pure _
      | some v => exact keeps_names v
    | child backend entityType path outputs options props form =>
      refine .bind (keepsOptional outputs) fun listed => .bind (keepsPairs options) fun chosen =>
        .bind (keepsPairs props) fun given => .bind ?_ fun outputNames => .bind ?_ fun own =>
          .bind (newMapping _) fun bag => stable.keeps_entity _ _ _ _ _ _ _
      · cases listed with
        | none => exact .pure _
        | some v => exact keeps_names v
      · exact .mapM fun name _ => .bind (keeps_ofExcept _) fun _ => .pure _
    | field object name => exact .bind (ih _ _) fun v => stable.keeps_field v name
    | declared object name => exact .bind (ih _ _) fun v => stable.keeps_declared v name
    | prop object key => exact .bind (ih _ _) fun v => stable.keeps_prop v key
    | reference handle backend attr =>
      exact .map (keeps_make fun s => stable.newReference s _)
    | output source name =>
      exact .bind (ih _ _) fun v => .bind (stable.keeps_referenceOf v _) fun r =>
        keeps_make fun s => stable.newOutput s _
    | automaticOutput source entity =>
      exact .bind (ih _ _) fun v => .bind (stable.keeps_referenceOf v _) fun r =>
        keeps_make fun s => stable.newOutput s _
    | pseudo ref => exact keeps_make fun s => stable.newIntrinsic s _
    | interpolation pieces =>
      exact .bind (each pieces) fun vs => keeps_make fun s => stable.newIntrinsic s _
    | rawInterpolation parts values =>
      exact .bind (each values) fun vs => keeps_make fun s => stable.newIntrinsic s _
    | define name factory registered params locals members =>
      exact keeps_make fun s => stable.newDefinition s _ _
    | call called arguments keywords =>
      refine .bind (ih _ _) fun v => .bind (each arguments) fun positional =>
        .bind (keepsPairs keywords) fun named => ?_
      dsimp only
      split
      · next id =>
        exact .bind .get fun s => .bind (keeps_ofExcept _) fun bound =>
          .bind (keeps_enter (ih · ·) _ _ _) fun outer =>
            .bind (.foldlM (fun inner entry _ => .bind (ih _ _) fun _ => .pure _) _) fun inner =>
              .bind (.mapM fun entry _ => .bind (ih inner _) fun _ => .pure _) fun made =>
                .bind (keeps_ofExcept _) fun members =>
                  keeps_make fun t => stable.newComposite t _
      · split
        · exact .throwBind _ _
        · exact stable.keeps_construct _ _ _
      · exact .throw _
    | withDefaults definition keywords =>
      exact .bind (ih _ _) fun v => .bind (keepsPairs keywords) fun given =>
        stable.keeps_withDefaults v given
    | propagate composite keywords =>
      exact .bind (ih _ _) fun v => .bind (keepsPairs keywords) fun given =>
        stable.keeps_propagate v given
    | concat pieces => exact .bind (each pieces) fun vs => .bind .get fun s => .pure _
    | shown v => exact .bind (ih _ _) fun v => .bind .get fun s => .pure _
    | _ =>
      -- What remains is looked up, a variable or a standing pseudo-parameter.
      dsimp only
      split
      · exact .pure _
      · exact .throw _

/-- So does the evaluation to the fixed depth. -/
theorem keeps_eval (scope : Scope) (e : Expr) : Keeps P (e.eval scope) :=
  stable.keeps_evalTo scope _ e

end Store.Stable
end Infra
