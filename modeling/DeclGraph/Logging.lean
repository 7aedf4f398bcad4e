/-
  DeclGraph — the log.

  An event has a level, a name and fields.  It is written to every output whose
  least level it reaches, if it reaches that of the log itself.  While a request
  is served its id is a field of every event; requests may be nested.

  * `severityOf` reads the name of a level as a number;
  * `LogOutput.accepts` says which events an output takes;
  * `Log.run` does actions one after the other.
-/
import DeclGraph.Config.Basic
import DeclGraph.Table

namespace DeclGraph

/-! ## Levels -/

/-- A character in upper case; only letters whose upper case is in ASCII change. -/
def upperLetter (c : Char) : Char :=
  if c = 'ı' then 'I' else if c = 'ſ' then 'S' else c.toUpper

/-- The numbers of level names. -/
def severities : List (String × Int) :=
  [("NOTSET", 0), ("DEBUG", 10), ("INFO", 20), ("WARN", 30), ("WARNING", 30), ("ERROR", 40),
   ("FATAL", 50), ("CRITICAL", 50)]

/-- The number of a level name in any letter case; a name that is not known has
    the number `fallback`. -/
def severityOf (name : String) (fallback : Int := 20) : Int :=
  (severities.lookup (String.ofList (name.toList.map upperLetter))).getD fallback

/-- The number of a level. -/
def LogLevel.severity (l : LogLevel) : Int := severityOf l.name

/-! ## Events -/

/-- Something to be written to the log. -/
structure LogEvent where
  level : LogLevel
  name : String
  fields : List (String × Json) := []
deriving DecidableEq, Inhabited

/-- The name of a level in records. -/
def LogLevel.recordName : LogLevel → String
  | debug => "debug"
  | info => "info"
  | warning => "warning"
  | error => "error"
  | critical => "critical"

/-- The record of an event during a request; a field of the event wins over the
    id of the request. -/
def LogEvent.record (e : LogEvent) (request : Option String) : Json :=
  let fields := Table.put "level" (.str e.level.recordName) (Table.put "event" (.str e.name) e.fields)
  match request with
  | some id => .obj (if (Json.member? "request_id" fields).isSome then fields
      else fields ++ [("request_id", .str id)])
  | none => .obj fields

/-- Whether an output of a log takes an event. -/
def LogOutput.accepts (o : LogOutput) (logLevel : LogLevel) (e : LogEvent) : Bool :=
  logLevel.severity ≤ e.level.severity && (o.level.getD logLevel).severity ≤ e.level.severity

/-! ## Runs -/

/-- What can happen to a log. -/
inductive LogAction where
  | event (event : LogEvent)
  /-- a request begins -/
  | enter (request : String)
  /-- the innermost request ends -/
  | exit
deriving DecidableEq, Inhabited

/-- A log: the open requests, innermost first, and the records of each output. -/
structure Log where
  config : LoggingConfig
  requests : List String := []
  records : List (List Json)
deriving Inhabited

namespace Log

/-- The log of a configuration. -/
def start (c : LoggingConfig) : Log := { config := c, records := c.outputs.map fun _ => [] }

/-- The id of the request that is served. -/
def request (l : Log) : Option String := l.requests.head?

/-- Writes an event to the outputs that take it. -/
def write (l : Log) (e : LogEvent) : Log :=
  let records := (l.config.outputs.zip l.records).map fun (o, rs) =>
    if o.accepts l.config.level e then rs ++ [e.record l.request] else rs
  { l with records }

/-- Does an action. -/
def step (l : Log) : LogAction → Log
  | .enter id => { l with requests := id :: l.requests }
  | .exit => { l with requests := l.requests.tail }
  | .event e => l.write e

/-- Does actions one after the other; the id of the request after each is kept. -/
def run (l : Log) : List LogAction → Log × List (Option String)
  | [] => (l, [])
  | a :: rest =>
    let next := l.step a
    let (last, ids) := run next rest
    (last, next.request :: ids)

end Log

end DeclGraph
