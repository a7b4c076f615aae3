import EntryDoor.Config.Basic
import EntryDoor.Text.Blank
import EntryDoor.Toml.Decode
import EntryDoor.Toml.Document

namespace EntryDoor

inductive ConfigFile
  | missing
  | unreadable
  | content (text : String)
deriving DecidableEq, Repr

-- A file is text only if its bytes are UTF-8.
def ConfigFile.ofBytes (bytes : ByteArray) : ConfigFile :=
  match String.fromUTF8? bytes with
  | some text => .content text
  | none => .unreadable

abbrev Environment := List (String × String)

namespace Config

open Toml Toml.Reader

def readLocation : Reader LocationSettings :=
  record [
    field "timezone" (wordText Zone.named?) fun v c => { c with zone := v },
    field "country" string fun v c => { c with country := v }] {}

def readDoor : Reader DoorSettings :=
  record [
    field "backend" (name Backend.named?) fun v c => { c with backend := v },
    field "resend_interval_secs" (natural 64) fun v c => { c with resendIntervalSeconds := v },
    field "fallback_horizon_secs" (natural 64) fun v c => { c with fallbackHorizonSeconds := v },
    field "max_tries_locked" (natural 32) fun v c => { c with maxTriesLocked := v },
    field "max_tries_unlocked" (natural 32) fun v c => { c with maxTriesUnlocked := v },
    field "command_timeout_ms" (natural 64) fun v c => { c with commandTimeoutMillis := v },
    field "reset_settle_delay_ms" (natural 64) fun v c => { c with resetSettleDelayMillis := v },
    field "reset_command_timeout_secs" (natural 64) fun v c =>
      { c with resetCommandTimeoutSeconds := v },
    field "request_timeout_secs" (natural 64) fun v c => { c with requestTimeoutSeconds := v }] {}

def readMqtt : Reader MqttSettings :=
  record [
    field "broker_host" string fun v c => { c with brokerHost := v },
    field "broker_port" (natural 16) fun v c => { c with brokerPort := v },
    field "client_id" string fun v c => { c with clientId := v },
    field "base_topic" string fun v c => { c with baseTopic := v },
    field "keep_alive_secs" (natural 16) fun v c => { c with keepAliveSeconds := v },
    field "qos" (natural 8) fun v c => { c with qos := v },
    field "reconnect_delay_secs" (natural 16) fun v c => { c with reconnectDelaySeconds := v }] {}

def readHolidays : Reader HolidaySettings :=
  record [
    field "fixed" (list (wordText Date.read?)) fun v c => { c with fixed := v },
    field "recurring" (list (text MonthDay.read)) fun v c => { c with recurring := v }] {}

def readEntry : Reader HoursEntry :=
  record [
    field "weekdays" (list string) fun v c => { c with weekdays := v },
    field "dates" (list (text MonthDay.read)) fun v c => { c with dates := v },
    field "time_ranges" (list (text DayTimeRange.read)) fun v c => { c with timeRanges := v },
    field "open_before_mins" (natural 32) fun v c => { c with openBeforeMinutes := v },
    field "close_after_mins" (natural 32) fun v c => { c with closeAfterMinutes := v },
    field "holiday" (name HolidayMode.named?) fun v c => { c with holiday := v }] {}

def readFilter : Reader String :=
  record [field "filter" string fun v _ => v] ({} : Config).filter

def readConfig : Reader Config :=
  record [
    field "logging" readFilter fun v c => { c with filter := v },
    field "location" readLocation fun v c => { c with location := v },
    field "door" readDoor fun v c => { c with door := v },
    field "mqtt" readMqtt fun v c => { c with mqtt := v },
    field "holidays" readHolidays fun v c => { c with holidays := v },
    field "opening_hours" (list readEntry) fun v c => { c with openingHours := v }] {}

def ofToml (s : String) : Except DecodeFault Config :=
  match Toml.read? s with
  | some entries => readConfig (.table .header entries)
  | none => .error .malformed

def ofFile : ConfigFile → Except ConfigError Config
  | .missing => .ok {}
  | .unreadable => .error .unreadable
  | .content s => (ofToml s).mapError .parse

def applyVariable {α : Type} (env : Environment) (key : String) (read? : String → Option α)
    (apply : α → Config → Config) (c : Config) : Config :=
  match (env.lookup key).bind read? with
  | some v => apply v c
  | none => c

-- Settings from the environment override those of the file; one that makes no sense is ignored.
def withEnvironment (c : Config) (env : Environment) : Config :=
  c
  |> applyVariable env "PORTIER_DOOR_BACKEND"
      (fun s => Backend.named? (String.ofList (Text.lowerAscii s.toList)))
      (fun v c => { c with door.backend := v })
  |> applyVariable env "PORTIER_MQTT_HOST" some (fun v c => { c with mqtt.brokerHost := v })
  |> applyVariable env "PORTIER_MQTT_PORT" (fun s => Text.unsigned? 16 s.toList)
      (fun v c => { c with mqtt.brokerPort := v })
  |> applyVariable env "PORTIER_TIMEZONE" Zone.named? (fun v c => { c with location.zone := v })
  |> applyVariable env "PORTIER_LOG" some (fun v c => { c with filter := v })
  |> applyVariable env "RUST_LOG" some (fun v c => { c with filter := v })

def HasDay (e : HoursEntry) : Prop :=
  e.dates ≠ [] ∨ e.weekdays ≠ [] ∨ e.holiday = .only

instance (e : HoursEntry) : Decidable (HasDay e) := by
  unfold HasDay
  infer_instance

def validate (c : Config) : Except ConfigError Unit := do
  if Text.trim c.location.country.toList = [] then throw .emptyCountry
  if 2 < c.mqtt.qos then throw (.invalidQos c.mqtt.qos)
  match c.openingHours.findIdx? fun e => !decide (HasDay e) with
  | some index => throw (.entryWithoutDay index)
  | none => pure ()
  c.policy.validate.mapError .invalidPolicy

def load (file : ConfigFile) (env : Environment) : Except ConfigError Config := do
  let c := (← ofFile file).withEnvironment env
  c.validate
  return c

end Config

end EntryDoor
