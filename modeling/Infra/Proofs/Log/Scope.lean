import Infra.Log.Session
import Infra.Proofs.Log.Context

/-!
# Scopes of the log context

A scope puts its fields back as they were when it began, and leaves all others as they are when it
ends. Whatever happens in between, as long as the scopes that begin there end there.

* `LogOperation.Nested` : operations in which the scopes are nested;
* `LogState.scopes_run` : they end the scopes that they begin, and no others;
* `LogState.distinct_run` : the names that are bound stay different;
* `LogState.lookup_run_of_quiet` : where nothing is bound but by scopes, nothing changes;
* `LogState.scope_spec` : what is bound after a scope.
-/

namespace Infra

namespace LogOperation

/-- The operation begins or ends a scope. -/
def marksScope : LogOperation → Bool
  | enter _ | leave => true
  | _ => false

/-- The operation binds or unbinds fields outside of scopes. -/
def bindsBare : LogOperation → Bool
  | bind _ | unbind _ | clear => true
  | _ => false

/-- Operations whose scopes are nested: each scope ends after all that begin in it. -/
inductive Nested : List LogOperation → Prop
  | nil : Nested []
  | single {op : LogOperation} {rest : List LogOperation} :
      op.marksScope = false → Nested rest → Nested (op :: rest)
  | scope {fields : LogContext} {body rest : List LogOperation} :
      Nested body → Nested rest → Nested (enter fields :: (body ++ leave :: rest))

end LogOperation

namespace LogState

open LogOperation (Nested)

variable {s : LogState}

/-! ## The scopes that have begun -/

theorem scopes_after {op : LogOperation} (single : op.marksScope = false) :
    (s.after op).scopes = s.scopes := by
  cases op with
  | enter _ | leave => cases single
  | configure _ | named _ | bound _ _ | bind _ | unbind _ | clear | log _ _ _ _ _ => rfl

/-- Nested operations end the scopes that they begin, and no others. -/
theorem scopes_run {ops : List LogOperation} (nested : Nested ops) :
    (s.run ops).scopes = s.scopes := by
  induction nested generalizing s with
  | nil => rfl
  | single plain _ ih => exact ih.trans (scopes_after plain)
  | @scope fields body rest _ _ inner later =>
    have begun : ((s.after (.enter fields)).run body).scopes =
        (s.context.enter fields).2 :: s.scopes := inner
    rw [run_cons, run_append, run_cons, later, after_leave begun]

theorem context_run_scope (s : LogState) (fields : LogContext) {body : List LogOperation}
    (nested : Nested body) :
    (s.run (.enter fields :: (body ++ [.leave]))).context =
      ((s.after (.enter fields)).run body).context.leave (s.context.enter fields).2 := by
  have begun : ((s.after (.enter fields)).run body).scopes =
      (s.context.enter fields).2 :: s.scopes := scopes_run nested
  rw [run_cons, run_append]
  exact congrArg LogState.context (after_leave begun)

/-! ## What is bound -/

theorem context_configure (s : LogState) (request : LogRequest) :
    (s.after (.configure request)).context = s.context := by
  show (s.logging.configure request).1.context = s.logging.context
  rcases s.logging.configure_cases request with ⟨rank, made⟩ | ⟨fault, refused⟩
  · rw [made]
  · rw [refused]

theorem distinct_after (h : s.context.Distinct) (op : LogOperation) :
    (s.after op).context.Distinct := by
  cases op with
  | configure request => rwa [context_configure]
  | bind fields => exact h.bind fields
  | unbind names => exact h.unbind names
  | clear => exact .nil
  | enter fields => exact h.bind fields
  | leave =>
    cases begun : s.scopes with
    | nil => rwa [after_leave_of_none begun]
    | cons saved rest =>
      rw [after_leave begun]
      exact (h.unbind saved.names).bind saved.saved
  | named _ | bound _ _ | log _ _ _ _ _ => exact h

theorem distinct_run (h : s.context.Distinct) (ops : List LogOperation) :
    (s.run ops).context.Distinct := by
  induction ops generalizing s with
  | nil => exact h
  | cons op rest ih => exact ih (distinct_after h op)

theorem lookup_run_scope (h : s.context.Distinct) (fields : LogContext) {body : List LogOperation}
    (nested : Nested body) (name : String) :
    (s.run (.enter fields :: (body ++ [.leave]))).context.lookup name =
      if name ∈ fields.map (·.1) then s.context.lookup name
      else ((s.after (.enter fields)).run body).context.lookup name := by
  rw [context_run_scope s fields nested]
  exact LogContext.lookup_leave h fields _ name

/-- An operation that neither binds nor unbinds nor belongs to a scope leaves what is bound. -/
theorem context_after {op : LogOperation} (single : op.marksScope = false)
    (plain : op.bindsBare = false) : (s.after op).context = s.context := by
  cases op with
  | enter _ | leave => cases single
  | bind _ | unbind _ | clear => cases plain
  | configure request => exact context_configure s request
  | named _ | bound _ _ | log _ _ _ _ _ => rfl

/-- Where nothing is bound or unbound but by nested scopes, all is bound as before at the end. -/
theorem lookup_run_of_quiet (h : s.context.Distinct) {ops : List LogOperation}
    (nested : Nested ops) (quiet : ∀ op ∈ ops, op.bindsBare = false) (name : String) :
    (s.run ops).context.lookup name = s.context.lookup name := by
  induction nested generalizing s with
  | nil => rfl
  | @single op rest single _ ih =>
    obtain ⟨plain, later⟩ := List.forall_mem_cons.mp quiet
    refine (ih (distinct_after h op) later).trans ?_
    rw [context_after single plain]
  | @scope fields body rest inner _ inside after' =>
    have inBody : ∀ op ∈ body, op.bindsBare = false := fun op mem => quiet op (by simp [mem])
    have inRest : ∀ op ∈ rest, op.bindsBare = false := fun op mem => quiet op (by simp [mem])
    have split : LogOperation.enter fields :: (body ++ .leave :: rest) =
        (.enter fields :: (body ++ [.leave])) ++ rest := by simp
    rw [split, run_append]
    refine (after' (distinct_run h _) inRest).trans ?_
    rw [lookup_run_scope h fields inner]
    split
    · rfl
    · next other =>
      refine (inside (distinct_after h _) inBody).trans ?_
      exact LogContext.lookup_bind_of_not_mem other

/-- In whatever state a program has come to, after a scope whose body holds any operations, with
further scopes nested, each name that the scope binds is bound as it was before the scope, and every
other as the body left it; a program that binds by nested scopes only leaves all as it was. -/
theorem scope_spec (before : List LogOperation) (fields : LogContext) {body : List LogOperation}
    (nested : Nested body) :
    let s := initial.run before
    let left := (s.after (.enter fields)).run body
    let t := s.run (.enter fields :: (body ++ [.leave]))
    (∀ name ∈ fields.map (·.1), t.context.lookup name = s.context.lookup name) ∧
    (∀ name ∉ fields.map (·.1), t.context.lookup name = left.context.lookup name) ∧
    t.scopes = s.scopes ∧
    ((∀ op ∈ body, op.bindsBare = false) →
      ∀ name, (s.run body).context.lookup name = s.context.lookup name) := by
  intro s left t
  have distinct : s.context.Distinct := distinct_run (s := initial) .nil before
  have ends := lookup_run_scope distinct fields nested
  refine ⟨fun name mem => ?_, fun name other => ?_, ?_, fun quiet name => ?_⟩
  · exact (ends name).trans (if_pos mem)
  · exact (ends name).trans (if_neg other)
  · exact scopes_run (.scope nested .nil)
  · exact lookup_run_of_quiet distinct nested quiet name

/-- A body that binds a name of its scope again, clears all that is bound inside a further scope and
binds a name of its own. -/
def clearingBody : List LogOperation :=
  [.bind [("project", .text "other")], .enter [("project", .text "inner")], .clear, .leave,
    .bind [("step", .int 1)]]

/-- After the scope the project is the one from before, the backend is cleared, and the step is
bound. -/
theorem scope_spec_clearing :
    let before := [.bind [("project", .text "infra"), ("backend", .text "template")]]
    let t := (initial.run before).run
      (.enter [("project", .text "child"), ("unit", .text "a.py")] :: (clearingBody ++ [.leave]))
    Nested clearingBody ∧ t.context.lookup "project" = some (.text "infra") ∧
      t.context.lookup "unit" = none ∧ t.context.lookup "backend" = none ∧
      t.context.lookup "step" = some (.int 1) := by
  intro before t
  have nested : Nested clearingBody :=
    .single rfl (@Nested.scope _ [.clear] _ (.single rfl .nil) (.single rfl .nil))
  obtain ⟨own, others, -, -⟩ :=
    scope_spec before [("project", .text "child"), ("unit", .text "a.py")] nested
  exact ⟨nested, (own "project" (by decide)).trans rfl, (own "unit" (by decide)).trans rfl,
    (others "backend" (by decide)).trans rfl, (others "step" (by decide)).trans rfl⟩

end LogState
end Infra
