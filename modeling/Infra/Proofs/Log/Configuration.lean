import Infra.Log.Session
import Infra.Proofs.Log.Context

/-!
# Refused configurations

A configuration that is refused still names the service. Nothing else of it is left: loggers, level,
format and what is bound are those from before, and the next configuration removes the name too.

* `Logging.fields_of_told`, `Logging.fields_of_not_told` : what the service is to an event: nothing
  where the program gives a service itself, else the last field;
* `LogState.serving` : the same state with another service; `LogState.after_serving` : an operation
  carries it along, or configures and so replaces it;
* `LogState.run_serving` : so do several;
* `LogState.refused_spec` : every line after a refused configuration beside the one without it.
-/

namespace Infra

namespace Logging

/-- The program itself gives a service to an event: it is bound, or a field of the logger, or of the
event. -/
def Told (l : Logging) (own added : LogContext) : Prop :=
  "service" ∈ (l.context ++ own ++ added).map (·.1)

instance (l : Logging) (own added : LogContext) : Decidable (l.Told own added) :=
  inferInstanceAs (Decidable (_ ∈ _))

variable {l : Logging} {own added : LogContext}

theorem mem_names_leveled (time : Option String) (level : Level) (event : String) :
    "service" ∈ (l.leveled time own level event added).map (·.1) ↔ l.Told own added := by
  have timed :
      "service" ∉ (time.map fun time => ("timestamp", Datum.text time)).toList.map (·.1) := by
    cases time <;> simp
  simp only [leveled, Told, LogContext.mem_names_bind, LogContext.mem_names_complete,
    List.map_append, List.mem_append, timed, List.map_singleton, List.mem_singleton]
  simp [or_assoc, or_comm, or_left_comm]

/-- Where the program gives a service itself, the fields of an event are the same whatever the name
of the service is. -/
theorem fields_of_told (told : l.Told own added) (time : Option String) (level : Level)
    (event : String) : l.fields time own level event added = l.leveled time own level event added :=
  LogContext.complete_of_mem ((mem_names_leveled time level event).mpr told) l.service

theorem fields_of_not_told (untold : ¬ l.Told own added) (time : Option String) (level : Level)
    (event : String) :
    l.fields time own level event added =
      l.leveled time own level event added ++ [("service", l.service)] :=
  LogContext.complete_of_not_mem (mt (mem_names_leveled time level event).mp untold) l.service

end Logging

namespace Logger

/-- The style in which a logger shows events of a level, if it shows them. -/
def style? (g : Logger) (l : Logging) (level : Level) : Option LineStyle :=
  (g.kept.getD l.config).bind fun config =>
    if config.least ≤ level.rank then some config.style else none

theorem render_eq (g : Logger) (l : Logging) (time : String) (level : Level) (event : String)
    (added : LogContext) :
    g.render l time level event added = (g.style? l level).map fun style =>
      Logging.lineOf style.format (l.fields (style.told time) g.own level event added) := by
  unfold render style? Logging.render
  cases g.kept.getD l.config with
  | none => rfl
  | some config =>
    show (if config.least ≤ level.rank then _ else _) = Option.map _ (if _ then _ else _)
    split <;> rfl

end Logger

/-- The operation configures. -/
def LogOperation.configures : LogOperation → Bool
  | configure _ => true
  | _ => false

namespace LogState

/-- The state with another name of the service. -/
def serving (s : LogState) (service : Datum) : LogState :=
  { s with logging := { s.logging with service := service } }

variable {s : LogState} {request : LogRequest} {fault : Fault}

theorem after_refused (refused : (s.logging.configure request).2 = .error fault) :
    s.after (.configure request) = s.serving request.service := by
  rcases s.logging.configure_cases request with ⟨rank, made⟩ | ⟨fault, kept⟩
  · rw [made] at refused
    cases refused
  · show { s with logging := (s.logging.configure request).1 } = s.serving request.service
    rw [kept]
    rfl

/-- An operation carries another name of the service along, unless it configures: then the name is
the new one. -/
theorem after_serving (s : LogState) (service : Datum) (op : LogOperation) :
    (s.serving service).after op =
      if op.configures then s.after op else (s.after op).serving service := by
  cases op with
  | leave =>
    cases begun : s.scopes with
    | nil =>
      have begun' : (s.serving service).scopes = [] := begun
      rw [after_leave_of_none begun, after_leave_of_none begun']
      rfl
    | cons saved rest =>
      have begun' : (s.serving service).scopes = saved :: rest := begun
      rw [after_leave begun, after_leave begun']
      rfl
  | configure _ | named _ | bound _ _ | bind _ | unbind _ | clear | enter _ | log _ _ _ _ _ => rfl

theorem run_serving (s : LogState) (service : Datum) (ops : List LogOperation) :
    (s.serving service).run ops =
      if ops.any LogOperation.configures then s.run ops else (s.run ops).serving service := by
  induction ops generalizing s with
  | nil => rfl
  | cons op rest ih =>
    rw [run_cons, run_cons, after_serving, List.any_cons]
    cases op.configures with
    | true => rfl
    | false => exact ih (s.after op)

theorem service_run {ops : List LogOperation} (plain : ops.any LogOperation.configures = false) :
    (s.run ops).logging.service = s.logging.service := by
  have same := run_serving s s.logging.service ops
  rw [plain] at same
  exact congrArg (fun t => t.logging.service) same

/-! ## Lines -/

theorem line?_serving_of_told (service : Datum) {logger : Nat} {added : LogContext}
    (told : ∀ g, s.loggers[logger]? = some g → s.logging.Told g.own added) (time : String)
    (level : Level) (event : String) :
    (s.serving service).line? (.log logger time level event added) =
      s.line? (.log logger time level event added) := by
  show s.loggers[logger]?.bind _ = s.loggers[logger]?.bind _
  refine Option.bind_congr fun g found => ?_
  rw [Logger.render_eq, Logger.render_eq]
  refine Option.map_congr fun style _ => ?_
  rw [Logging.fields_of_told (told g found),
    Logging.fields_of_told (l := (s.serving service).logging) (told g found)]
  rfl

theorem line?_of_not_told {logger : Nat} {g : Logger} (found : s.loggers[logger]? = some g)
    {added : LogContext} (untold : ¬ s.logging.Told g.own added) (time : String) (level : Level)
    (event : String) :
    s.line? (.log logger time level event added) = (g.style? s.logging level).map fun style =>
      Logging.lineOf style.format (s.logging.leveled (style.told time) g.own level event added ++
        [("service", s.logging.service)]) := by
  show s.loggers[logger]?.bind _ = _
  rw [found, Option.bind_some, Logger.render_eq]
  simp only [Logging.fields_of_not_told untold]

/-- A refused configuration beside none, whatever operations follow. Once one of them configures,
both come to the same state. Until then the state is the same but for the service, which has the
name that was refused. An event to which the program gives a service then has the same line as
without the refused configuration; any other is shown by either or by none, in the same format and
with the same fields before the service. -/
theorem refused_spec (s : LogState) {request : LogRequest} {fault : Fault}
    (refused : (s.logging.configure request).2 = .error fault) (ops : List LogOperation) :
    let kept := s.run ops
    let tried := s.run (.configure request :: ops)
    (ops.any LogOperation.configures = true → tried = kept) ∧
    (ops.any LogOperation.configures = false →
      tried = kept.serving request.service ∧ kept.logging.service = s.logging.service ∧
      ∀ logger time rank event added,
        ((∀ g, kept.loggers[logger]? = some g → kept.logging.Told g.own added) →
          tried.line? (.log logger time rank event added) =
            kept.line? (.log logger time rank event added)) ∧
        (∀ g, kept.loggers[logger]? = some g → ¬ kept.logging.Told g.own added →
          ∃ (shown : Option LineFormat) (fields : LogContext), "service" ∉ fields.map (·.1) ∧
            kept.line? (.log logger time rank event added) = (shown.map fun format =>
              Logging.lineOf format (fields ++ [("service", s.logging.service)])) ∧
            tried.line? (.log logger time rank event added) = (shown.map fun format =>
              Logging.lineOf format (fields ++ [("service", request.service)])))) := by
  intro kept tried
  have both : tried =
      if ops.any LogOperation.configures then kept else kept.serving request.service := by
    show (s.after (.configure request)).run ops = _
    rw [after_refused refused, run_serving]
  refine ⟨fun again => by rw [both, if_pos again], fun plain => ?_⟩
  have differs : tried = kept.serving request.service := by rw [both, if_neg (by simp [plain])]
  have service_kept : kept.logging.service = s.logging.service := service_run plain
  refine ⟨differs, service_kept, fun logger time rank event added => ⟨fun told => ?_, ?_⟩⟩
  · rw [differs]
    exact line?_serving_of_told request.service told time rank event
  · intro g found untold
    have line := line?_of_not_told found untold time rank event
    have line' := line?_of_not_told (s := kept.serving request.service) found untold time rank event
    -- Both show the event in one style, as the service is no part of it.
    have alike : g.style? (kept.serving request.service).logging rank =
      g.style? kept.logging rank := rfl
    rw [service_kept] at line
    rw [alike] at line'
    rw [differs]
    cases shown : g.style? kept.logging rank with
    | none =>
      rw [shown] at line line'
      exact ⟨none, [], by simp, line, line'⟩
    | some style =>
      rw [shown] at line line'
      exact ⟨some style.format, kept.logging.leveled (style.told time) g.own rank event added,
        mt (Logging.mem_names_leveled _ rank event).mp untold, line, line'⟩

/-- A program that has configured and made a logger. -/
def configured : LogState :=
  initial.run [.configure ⟨.text "INFO", ⟨.json, false⟩, .text "tessera"⟩, .named (.text "tests")]

/-- A level that does not exist is refused, and events that bring a service keep their lines. -/
theorem refused_spec_loud :
    let event : LogOperation := .log 0 "12:00" .info "unit_loaded" [("service", .text "loader")]
    let ops := [.bind [("project", .text "infra")]]
    let loud : LogRequest := ⟨.text "LOUD", ⟨.console, true⟩, .text "other"⟩
    (∃ fault, (configured.logging.configure loud).2 = .error fault) ∧
      (configured.run (.configure loud :: ops)).line? event = (configured.run ops).line? event := by
  intro event ops loud
  have refused : (configured.logging.configure loud).2 = .error (Logging.noLevel "LOUD") := by rfl
  obtain ⟨-, -, lines⟩ := (refused_spec configured refused ops).2 rfl
  refine ⟨⟨_, refused⟩, (lines 0 "12:00" .info "unit_loaded" _).1 fun g found => ?_⟩
  cases found
  decide

/-- A refused configuration shows in the next line, under the name of its service. -/
theorem refused_service_shows :
    let event : LogOperation := .log 1 "12:00" .info "unit_loaded" []
    let loud : LogRequest := ⟨.text "LOUD", ⟨.json, false⟩, .text "other"⟩
    let s := configured.after (.named .null)
    (∃ fault, (s.logging.configure loud).2 = .error fault) ∧
      s.line? event = some
        "\x7b\"event\": \"unit_loaded\", \"level\": \"info\", \"service\": \"tessera\"\x7d" ∧
      (s.after (.configure loud)).line? event = some
        "\x7b\"event\": \"unit_loaded\", \"level\": \"info\", \"service\": \"other\"\x7d" := by
  exact ⟨⟨Logging.noLevel "LOUD", rfl⟩, by decide +kernel, by decide +kernel⟩

end LogState
end Infra
