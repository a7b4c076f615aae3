import EntryDoor.Calendar.ZoneTable
import EntryDoor.Codec
import EntryDoor.Holidays
import EntryDoor.Policy

namespace EntryDoor

inductive Backend
  | virtual
  | mqtt
deriving DecidableEq, Repr, Inhabited

namespace Backend

def name : Backend → String
  | virtual => "virtual"
  | mqtt => "mqtt"

def named? (name : String) : Option Backend :=
  [virtual, mqtt].find? (·.name == name)

end Backend

-- Weekdays only, weekdays and holidays, or holidays only.
inductive HolidayMode
  | no
  | yes
  | only
deriving DecidableEq, Repr, Inhabited

namespace HolidayMode

def name : HolidayMode → String
  | no => "no"
  | yes => "yes"
  | only => "only"

def named? (name : String) : Option HolidayMode :=
  [no, yes, only].find? (·.name == name)

end HolidayMode

-- An entry with dates is for these dates alone.
structure HoursEntry where
  weekdays : List String := []
  dates : List MonthDay := []
  timeRanges : List DayTimeRange := []
  openBeforeMinutes : Nat := 0
  closeAfterMinutes : Nat := 0
  holiday : HolidayMode := .no
deriving DecidableEq, Repr

structure DoorSettings where
  backend : Backend := .virtual
  resendIntervalSeconds : Nat := 60
  fallbackHorizonSeconds : Nat := 300
  maxTriesLocked : Nat := 60
  maxTriesUnlocked : Nat := 20
  commandTimeoutMillis : Nat := 1000
  resetSettleDelayMillis : Nat := 2000
  resetCommandTimeoutSeconds : Nat := 10
  requestTimeoutSeconds : Nat := 5
deriving DecidableEq, Repr

structure MqttSettings where
  brokerHost : String := "localhost"
  brokerPort : Nat := 1883
  clientId : String := "portier"
  baseTopic : String := "portier/door"
  keepAliveSeconds : Nat := 30
  qos : Nat := 1
  reconnectDelaySeconds : Nat := 5
deriving DecidableEq, Repr

structure LocationSettings where
  zone : Zone := .vienna
  country : String := "AT"
deriving DecidableEq, Repr

structure HolidaySettings where
  fixed : List Date := []
  recurring : List MonthDay := []
deriving DecidableEq, Repr

-- Everything has a default. Without opening hours the door stays locked.
structure Config where
  filter : String := "portierd=info,portier_app=info,portier_adapter_mqtt=info"
  location : LocationSettings := {}
  door : DoorSettings := {}
  mqtt : MqttSettings := {}
  holidays : HolidaySettings := {}
  openingHours : List HoursEntry := []
deriving DecidableEq, Repr

namespace Config

def policy (c : Config) : Policy where
  resendInterval := .ofSeconds c.door.resendIntervalSeconds
  fallbackHorizon := .ofSeconds c.door.fallbackHorizonSeconds
  maxTriesLocked := c.door.maxTriesLocked
  maxTriesUnlocked := c.door.maxTriesUnlocked
  commandTimeout := .ofMillis c.door.commandTimeoutMillis
  resetSettleDelay := .ofMillis c.door.resetSettleDelayMillis
  resetCommandTimeout := .ofSeconds c.door.resetCommandTimeoutSeconds
  requestTimeout := .ofSeconds c.door.requestTimeoutSeconds

def holidayCalendar (c : Config) : HolidayCalendar :=
  ⟨c.location.country, c.holidays.fixed, c.holidays.recurring⟩

end Config

inductive ConfigError
  | parse (fault : DecodeFault)
  | unreadable
  | emptyCountry
  | invalidQos (level : Nat)
  | entryWithoutDay (index : Nat)
  | invalidPolicy (cause : ValidationError)
  | rules (cause : ValidationError)
deriving DecidableEq, Repr

namespace ConfigError

def message : ConfigError → String
  | parse _ => "failed to parse config file"
  | unreadable => "failed to read config file"
  | emptyCountry => "invalid configuration: location.country must not be empty"
  | invalidQos level => s!"invalid configuration: mqtt.qos must be 0, 1 or 2, got {level}"
  | entryWithoutDay index =>
    "invalid configuration: opening_hours[" ++ toString index ++
      "] applies to no day, set weekdays or dates"
  | invalidPolicy cause => "invalid configuration: " ++ cause.message
  | rules _ => "invalid opening hours"

end ConfigError

end EntryDoor
