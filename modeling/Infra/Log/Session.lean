import Infra.Log.Logger

/-!
# Sessions of logging

What a program does with logging, one operation after the other: it configures, makes loggers, binds
and unbinds fields, begins and ends scopes, and logs events.

* `Logger` : a logger that a program holds; `Logger.named`, `Logger.bound` : how one is made;
* `LogOperation` : one operation; `LogOperation.ofArguments` : that of a call; `LogState` : the state
  on which operations work;
* `LogState.after`, `LogState.line?` : the state and the line that an operation leaves;
* `LogState.run` : the state that several operations leave.

A logger that is made by its name follows the configuration of the moment. One that is made from
another by fields of its own keeps the configuration under which that was done; the name of the
service is that of the moment for either.
-/

namespace Infra

/-- A logger that a program holds. -/
structure Logger where
  own : LogContext
  /-- The configuration that the logger keeps, if it keeps one. -/
  kept : Option (Option LogConfig)
  deriving Repr

namespace Logger

/-- The logger of a name, or with null the one without a name. -/
def named (name : Datum) : Logger := ⟨if name.isNull then [] else [("logger", name)], none⟩

/-- The logger with further fields of its own. -/
def bound (g : Logger) (l : Logging) (fields : LogContext) : Logger :=
  ⟨g.own.bind fields, some (g.kept.getD l.config)⟩

/-- The line of an event at a time, if the configuration of the logger shows it. -/
def render (g : Logger) (l : Logging) (time : String) (level : Level) (event : String)
    (added : LogContext) : Option String :=
  { l with config := g.kept.getD l.config }.render time g.own level event added

end Logger

/-- What a program does with logging. Loggers are numbered in the order in which they are made. -/
inductive LogOperation
  | configure (request : LogRequest)
  | named (name : Datum)
  | bound (logger : Nat) (fields : LogContext)
  | bind (fields : LogContext)
  | unbind (names : List String)
  | clear
  | enter (fields : LogContext)
  | leave
  | log (logger : Nat) (time : String) (level : Level) (event : String) (added : LogContext)
  deriving Repr

/-- The making of a logger by a call with arguments, of which there is one at most. -/
def LogOperation.ofArguments (arguments : List Datum) : Except Fault LogOperation :=
  match arguments with
  | [] => .ok (.named .null)
  | [name] => .ok (.named name)
  | _ => .error (.wrongType ("get_logger() takes from 0 to 1 positional arguments but "
      ++ toString arguments.length ++ " were given"))

/-- The state on which operations work: that of logging, the loggers made so far, and the scopes
that have begun, the innermost first. -/
structure LogState where
  logging : Logging
  loggers : List Logger
  scopes : List SavedScope
  deriving Repr

namespace LogState

def initial : LogState := ⟨.initial, [], []⟩

/-- The fields that are bound. -/
def context (s : LogState) : LogContext := s.logging.context

/-- The state with other fields bound. -/
def withContext (s : LogState) (c : LogContext) : LogState :=
  { s with logging := { s.logging with context := c } }

/-- The state with more loggers. -/
def withLoggers (s : LogState) (made : List Logger) : LogState :=
  { s with loggers := s.loggers ++ made }

/-- The state after an operation. -/
def after (s : LogState) : LogOperation → LogState
  | .configure request => { s with logging := (s.logging.configure request).1 }
  | .named name => s.withLoggers [.named name]
  | .bound logger fields =>
    s.withLoggers (s.loggers[logger]?.map fun g => g.bound s.logging fields).toList
  | .bind fields => s.withContext (s.context.bind fields)
  | .unbind names => s.withContext (s.context.unbind names)
  | .clear => s.withContext []
  | .enter fields =>
    let (context, saved) := s.context.enter fields
    { s.withContext context with scopes := saved :: s.scopes }
  | .leave =>
    match s.scopes with
    | saved :: rest => { s.withContext (s.context.leave saved) with scopes := rest }
    | [] => s
  | .log .. => s

/-- The line that an operation writes. -/
def line? (s : LogState) : LogOperation → Option String
  | .log logger time level event added =>
    s.loggers[logger]?.bind fun g => g.render s.logging time level event added
  | _ => none

/-- The state after several operations. -/
def run (s : LogState) (ops : List LogOperation) : LogState := ops.foldl after s

theorem run_cons (s : LogState) (op : LogOperation) (rest : List LogOperation) :
    s.run (op :: rest) = (s.after op).run rest := rfl

theorem run_append (s : LogState) (ops more : List LogOperation) :
    s.run (ops ++ more) = (s.run ops).run more := List.foldl_append

/-- The innermost scope ends. -/
theorem after_leave {s : LogState} {saved : SavedScope} {rest : List SavedScope}
    (begun : s.scopes = saved :: rest) :
    s.after .leave = { s.withContext (s.context.leave saved) with scopes := rest } := by
  simp only [after, begun]

/-- Where no scope has begun, none ends. -/
theorem after_leave_of_none {s : LogState} (none : s.scopes = []) : s.after .leave = s := by
  simp only [after, none]

end LogState
end Infra
