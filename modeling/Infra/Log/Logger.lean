import Infra.Json.Writer
import Infra.Log.Context
import Infra.Log.Event
import Infra.Text.Upper

/-!
# Rendering of events

Once logging is configured, each event of a sufficient level becomes one line. Its fields are those
of the logger and then its own, with the event and the time, each taking the place of the ones
before; the bound context and at last the service are added where they take no other's place.

* `LogRequest` : what a configuration asks for; `LogRequest.ofKeywords` : that of a call;
* `Logging` : the state of logging; `Logging.configure` : a new configuration;
  `Logging.configure_cases` : what it comes to;
* `Logging.fields` : the fields of an event; `Logging.render` : its line, if it has one.

A refused configuration changes nothing except the name of the service.
-/

namespace Infra

/-- How lines are written. -/
inductive LineFormat
  | json | console
  deriving DecidableEq, Repr

/-- The form of lines: how they are written, and whether they tell the time. -/
structure LineStyle where
  format : LineFormat
  timestamps : Bool
  deriving DecidableEq, Repr

/-- The time that a line tells of an event at a time. -/
def LineStyle.told (style : LineStyle) (time : String) : Option String :=
  if style.timestamps then some time else none

/-- A configuration: the least rank of the events that show, and the style of their lines. -/
structure LogConfig where
  least : Nat
  style : LineStyle
  deriving DecidableEq, Repr

/-! ## Requests -/

/-- What a configuration asks for. -/
structure LogRequest where
  level : Datum
  style : LineStyle
  service : Datum
  deriving Repr

namespace LogRequest

/-- The names of what a request tells. -/
def names : List String := ["level", "json_format", "service", "add_timestamp"]

/-- The request of a call with keywords, which has none of another name. Where no format is told,
lines on a terminal are for a console. -/
def ofKeywords (terminal : Bool) (keywords : List (String × Datum)) : Except Fault LogRequest :=
  match keywords.find? fun entry => !names.contains entry.1 with
  | some entry => .error (.wrongType
      ("configure_logging() got an unexpected keyword argument " ++ Text.quoted entry.1))
  | none =>
    let json := match keywords.lookup "json_format" with
      | some told => if told.isNull then !terminal else !told.isFalsy
      | none => !terminal
    let timestamps := !((keywords.lookup "add_timestamp").getD (.bool true)).isFalsy
    .ok {
      level := (keywords.lookup "level").getD (.text "INFO")
      style := ⟨if json then .json else .console, timestamps⟩
      service := (keywords.lookup "service").getD (.text "tessera") }

end LogRequest

/-- The state of logging. -/
structure Logging where
  service : Datum
  config : Option LogConfig
  context : LogContext
  deriving Repr

namespace Logging

def initial : Logging := ⟨.text "tessera", none, []⟩

/-! ## Configurations -/

/-- The ranks of the level names. -/
def ranks : List (String × Nat) :=
  [("NOTSET", 0), ("DEBUG", 10), ("INFO", 20), ("WARN", 30), ("WARNING", 30), ("ERROR", 40),
   ("FATAL", 50), ("CRITICAL", 50)]

/-- Why a name is refused that is no level. Two other fields stand among the levels: a text, which
names no level either, and a table, which cannot be looked up. -/
def noLevel (name : String) : Fault :=
  match name with
  | "BASIC_FORMAT" => .missingKey "%(levelname)s:%(name)s:%(message)s"
  | "_STYLES" => .wrongType "unhashable type: 'dict'"
  | _ => .noField ("module 'logging' has no attribute " ++ Text.quoted name)

/-- The rank of a level, which is a text and names one in any case. -/
def rankOf (level : Datum) : Except Fault Nat :=
  match level.text? with
  | some text =>
    match ranks.lookup (Text.upper text) with
    | some rank => .ok rank
    | none => .error (noLevel (Text.upper text))
  | none => .error (.noField "upper")

/-- Sets the service, the least level and the style. A level that does not exist is refused, after
the service was set. -/
def configure (l : Logging) (request : LogRequest) : Logging × Except Fault Unit :=
  let l := { l with service := request.service }
  match rankOf request.level with
  | .ok rank => ({ l with config := some ⟨rank, request.style⟩ }, .ok ())
  | .error fault => (l, .error fault)

/-- A configuration is made, or refused with no change but the service. What is bound stays. -/
theorem configure_cases (l : Logging) (request : LogRequest) :
    (∃ rank, l.configure request =
      (⟨request.service, some ⟨rank, request.style⟩, l.context⟩, .ok ())) ∨
    (∃ fault, l.configure request = ({ l with service := request.service }, .error fault)) := by
  cases found : rankOf request.level with
  | ok rank => exact .inl ⟨rank, by simp only [configure, found]⟩
  | error fault => exact .inr ⟨fault, by simp only [configure, found]⟩

/-! ## Lines -/

/-- The fields of an event, where the logger has fields of its own, before the service is added. -/
def leveled (l : Logging) (time : Option String) (own : LogContext) (level : Level)
    (event : String) (added : LogContext) : LogContext :=
  let told := (own.bind added).bind [("event", .text event)]
  let timed := told.bind (time.map fun time => ("timestamp", Datum.text time)).toList
  (timed.complete l.context).bind [("level", .text level.label)]

/-- The fields of an event. -/
def fields (l : Logging) (time : Option String) (own : LogContext) (level : Level)
    (event : String) (added : LogContext) : LogContext :=
  (l.leveled time own level event added).complete [("service", l.service)]

/-- A text, widened with blanks. -/
def padded (text : String) (width : Nat) : String :=
  text ++ String.ofList (List.replicate (width - text.length) ' ')

/-- The text of a field on the console. A text with blanks, quotes or an equals sign is quoted. -/
def consoleText : Datum → String
  | .leaf (.text s) =>
    if s.toList.any fun c => [' ', '\t', '=', '\r', '\n', '"', '\x27'].contains c then Text.quoted s
    else s
  | .leaf .null => "None"
  | .leaf (.bool b) => if b then "True" else "False"
  | d =>
    match Json.line d with
    | .ok text => text
    | .error fault => fault.label

/-- A line for a console: the time, the level, the event, the logger, and the other fields by
name. -/
def consoleLine (fields : LogContext) : String :=
  let text (name : String) : String := consoleText ((fields.lookup name).getD (.text ""))
  let others := (fields.filter fun field =>
    !(["timestamp", "event", "level", "logger"].contains field.1)).mergeSort
      fun a b => decide (a.1 ≤ b.1)
  let time := match fields.lookup "timestamp" with
    | some time => consoleText time ++ " "
    | none => ""
  let logger := match fields.lookup "logger" with
    | some name => "[" ++ consoleText name ++ "] "
    | none => ""
  let event := match fields.lookup "event" with
    | some (.leaf (.text s)) => s
    | _ => text "event"
  time ++ "[" ++ padded (text "level") 9 ++ "] " ++ padded event 30 ++ " " ++ logger
    ++ String.intercalate " " (others.map fun field => field.1 ++ "=" ++ consoleText field.2)

/-- The line of the fields of an event. -/
def lineOf (format : LineFormat) (fields : LogContext) : String :=
  match format with
  | .console => consoleLine fields
  | .json =>
    match Json.line (.record fields) with
    | .ok text => text
    | .error fault => fault.label

/-- The line of an event at a time, if logging is configured and shows its level. -/
def render (l : Logging) (time : String) (own : LogContext) (level : Level) (event : String)
    (added : LogContext) : Option String :=
  match l.config with
  | none => none
  | some config =>
    if config.least ≤ level.rank then
      some (lineOf config.style.format (l.fields (config.style.told time) own level event added))
    else none

/-- The lines of events of the library at a time. -/
def lines (l : Logging) (time : String) (events : List Event) : List String :=
  events.filterMap fun e =>
    l.render time [("logger", .text e.logger)] e.level e.event e.fields

end Logging
end Infra
