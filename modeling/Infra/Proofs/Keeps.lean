import Infra.Fault

/-!
# What computations keep

* `Keeps P x` : the computation ends in a state with the property when it starts in one, be it
  refused or not;
* `Keeps.bind`, `Keeps.tryCatch`, `keeps_tryFinally` : a computation keeps what its parts keep;
* `Keeps.mapM`, `Keeps.foldlM`, `Keeps.forM`, `Keeps.forIn` : so do the loops over a list.
-/

namespace Infra

variable {σ α β : Type} {P : σ → Prop}

/-- The state in which a computation ends. -/
def finalState : EStateM.Result Fault σ α → σ
  | .ok _ s => s
  | .error _ s => s

/-- What is done in the end is done whether the computation is refused or not. -/
theorem finalState_tryFinally (x : EStateM Fault σ α) (f : σ → σ) (s : σ) :
    finalState ((tryFinally x (modify f)).run s) = f (finalState (x.run s)) := by
  show finalState (EStateM.map _ (tryFinally' x fun _ => modify f) s) = f (finalState (x s))
  cases done : x s with
  | ok a t =>
    simp only [EStateM.map, tryFinally', done]
    rfl
  | error fault t =>
    simp only [EStateM.map, tryFinally', done]
    rfl

/-- The computation ends in a state with the property when it starts in one. -/
def Keeps (P : σ → Prop) (x : EStateM Fault σ α) : Prop := ∀ s, P s → P (finalState (x.run s))

namespace Keeps

theorem pure (a : α) : Keeps P (Pure.pure a : EStateM Fault σ α) := fun _ h => h

theorem throw (fault : Fault) : Keeps P (MonadExcept.throw fault : EStateM Fault σ α) :=
  fun _ h => h

theorem get : Keeps P (MonadState.get : EStateM Fault σ σ) := fun _ h => h

theorem set {s : σ} (h : P s) : Keeps P (MonadStateOf.set s : EStateM Fault σ PUnit) := fun _ _ => h

theorem modifyGet {f : σ → α × σ} (h : ∀ s, P s → P (f s).2) :
    Keeps P (MonadStateOf.modifyGet f : EStateM Fault σ α) := h

theorem modify {f : σ → σ} (h : ∀ s, P s → P (f s)) :
    Keeps P (MonadState.modifyGet fun s => (PUnit.unit, f s) : EStateM Fault σ PUnit) := h

theorem bind {x : EStateM Fault σ α} {f : α → EStateM Fault σ β} (first : Keeps P x)
    (next : ∀ a, Keeps P (f a)) : Keeps P (x >>= f) := by
  intro s h
  have before := first s h
  show P (finalState (EStateM.bind x f s))
  unfold EStateM.bind
  change P (finalState (x s)) at before
  cases done : x s with
  | ok a t =>
    rw [done] at before
    exact next a t before
  | error fault t =>
    rw [done] at before
    exact before

theorem map {x : EStateM Fault σ α} {f : α → β} (first : Keeps P x) : Keeps P (f <$> x) :=
  bind first fun a => pure (f a)

theorem throwBind (fault : Fault) (f : α → EStateM Fault σ β) :
    Keeps P (MonadExcept.throw fault >>= f) := fun _ h => h

/-- What follows the state that is read may rely on the property. -/
theorem getBind {f : σ → EStateM Fault σ β} (next : ∀ s, P s → Keeps P (f s)) :
    Keeps P (MonadState.get >>= f) := fun s h => next s h s h

theorem tryCatch {x : EStateM Fault σ α} {handle : Fault → EStateM Fault σ α} (first : Keeps P x)
    (handled : ∀ fault, Keeps P (handle fault)) : Keeps P (MonadExcept.tryCatch x handle) := by
  intro s h
  have before := first s h
  show P (finalState (EStateM.tryCatch x handle s))
  unfold EStateM.tryCatch
  change P (finalState (x s)) at before
  cases done : x s with
  | ok a t =>
    rw [done] at before
    exact before
  | error fault t =>
    rw [done] at before
    exact handled fault t before

/-! ## Loops -/

theorem mapM {f : α → EStateM Fault σ β} {items : List α} (each : ∀ a ∈ items, Keeps P (f a)) :
    Keeps P (items.mapM f) := by
  induction items with
  | nil =>
    rw [List.mapM_nil]
    exact pure []
  | cons a rest ih =>
    rw [List.mapM_cons]
    refine bind (each a List.mem_cons_self) fun b => ?_
    exact bind (ih fun c mem => each c (List.mem_cons_of_mem _ mem)) fun bs => pure (b :: bs)

theorem foldlM {f : β → α → EStateM Fault σ β} {items : List α}
    (each : ∀ b, ∀ a ∈ items, Keeps P (f b a)) (b : β) : Keeps P (items.foldlM f b) := by
  induction items generalizing b with
  | nil =>
    rw [List.foldlM_nil]
    exact pure b
  | cons a rest ih =>
    rw [List.foldlM_cons]
    refine bind (each b a List.mem_cons_self) fun c => ?_
    exact ih (fun d e mem => each d e (List.mem_cons_of_mem _ mem)) c

theorem forM {f : α → EStateM Fault σ PUnit} {items : List α} (each : ∀ a ∈ items, Keeps P (f a)) :
    Keeps P (items.forM f) := by
  induction items with
  | nil => exact pure PUnit.unit
  | cons a rest ih =>
    exact bind (each a List.mem_cons_self) fun _ =>
      ih fun c mem => each c (List.mem_cons_of_mem _ mem)

theorem forIn {f : α → β → EStateM Fault σ (ForInStep β)} {items : List α}
    (each : ∀ a ∈ items, ∀ b, Keeps P (f a b)) (b : β) : Keeps P (ForIn.forIn items b f) := by
  induction items generalizing b with
  | nil =>
    rw [List.forIn_nil]
    exact pure b
  | cons a rest ih =>
    rw [List.forIn_cons]
    refine bind (each a List.mem_cons_self b) fun step => ?_
    cases step with
    | done c => exact pure c
    | yield c => exact ih (fun d mem => each d (List.mem_cons_of_mem _ mem)) c

end Keeps

theorem keeps_tryFinally {x : EStateM Fault σ α} {f : σ → σ} (first : Keeps P x)
    (last : ∀ s, P s → P (f s)) : Keeps P (tryFinally x (modify f)) := by
  intro s h
  rw [finalState_tryFinally]
  exact last _ (first s h)

end Infra
