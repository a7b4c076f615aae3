import EntryDoor.Config.Rules
import EntryDoor.Text.Quoted

namespace EntryDoor

inductive Signal
  | hangup
  | terminate
  | interrupt
deriving DecidableEq, Repr

inductive StartupError
  | configuration (cause : ConfigError)
  | openingHours (cause : ConfigError)
  | door (cause : HardwareFault)
deriving DecidableEq, Repr

-- The error and its causes, from the outermost on. A fault in a document is not told further.
def ConfigError.chain (e : ConfigError) : List String :=
  match e with
  | .rules cause => [e.message, cause.message]
  | _ => [e.message]

def StartupError.chain : StartupError → List String
  | configuration cause => "failed to load configuration" :: cause.chain
  | openingHours cause => "failed to build opening hours" :: cause.chain
  | door cause => ["failed to set up door backend", cause.message]

-- Several causes are numbered.
def StartupError.report (e : StartupError) : String :=
  match e.chain with
  | [] => "Error"
  | [outer] => "Error: " ++ outer
  | [outer, cause] => "Error: " ++ outer ++ "\n\nCaused by:\n    " ++ cause
  | outer :: causes =>
    "Error: " ++ outer ++ "\n\nCaused by:" ++
      String.join (causes.mapIdx fun i cause => "\n    " ++ toString i ++ ": " ++ cause)

inductive LogLine
  | noOpeningHours
  | starting (backend : Backend) (location : LocationSettings)
  | running (status : Status)
  | upcoming (interval : Interval)
  | reloading
  | keepingPrevious (cause : ConfigError)
  | notReplaced (cause : SchedulerError)
  | shuttingDown (signal : Signal)
  | stopped
deriving Repr

namespace LogLine

def level : LogLine → String
  | noOpeningHours => "WARN"
  | keepingPrevious _ => "ERROR"
  | notReplaced _ => "ERROR"
  | _ => "INFO"

def signalName : Signal → String
  | .hangup => "SIGHUP"
  | .terminate => "SIGTERM"
  | .interrupt => "SIGINT"

-- How instants are written in a line: by themselves, and as the ends of an interval.
structure TimeFormat where
  alone : Timestamp → String := toString
  bound : Timestamp → String := fun t => String.ofList t.shown

def message (time : TimeFormat) : LogLine → String
  | noOpeningHours => "no opening hours configured, the door stays locked"
  | starting backend location =>
    "starting portierd backend=" ++ Text.quote backend.name ++ " timezone=" ++ location.zone.name ++
      " country=" ++ location.country
  | running status =>
    let validUntil := match status.validUntil with
      | some t => "Some(" ++ time.alone t ++ ")"
      | none => "None"
    "door scheduler running state=" ++ status.state.name ++ " valid_until=" ++ validUntil
  | upcoming i => "upcoming opening interval=<" ++ time.bound i.start ++ " - " ++ time.bound i.stop ++ ">"
  | reloading => "reloading opening hours"
  | keepingPrevious _ => "invalid configuration, keeping previous opening hours"
  | notReplaced _ => "failed to replace opening hours"
  | shuttingDown signal => "received " ++ signalName signal ++ ", shutting down"
  | stopped => "portierd stopped"

def text (time : TimeFormat) (l : LogLine) : String :=
  l.level ++ " portierd: " ++ l.message time

end LogLine

end EntryDoor
