import EntryDoor.Door
import EntryDoor.Hours.Layer
import EntryDoor.Hours.OpeningHour
import EntryDoor.Text.Quoted

namespace EntryDoor

open Text

inductive PolicyFault
  | zeroResendInterval
  | zeroFallbackHorizon
  | unlockedBudgetLarger
deriving DecidableEq, Repr

def PolicyFault.message : PolicyFault → String
  | zeroResendInterval => "resend interval must be non-zero"
  | zeroFallbackHorizon => "fallback horizon must be non-zero"
  | unlockedBudgetLarger => "unlocked retry budget must not exceed the locked one"

inductive ValidationError
  | invalidDayTime (text : String)
  | emptyRange (start stop : DayTime)
  | invalidRange (text : String)
  | invalidMonthDay (text : String)
  | invalidWeekday (text : String)
  | invalidDoorState (text : String)
  | invalidPolicy (fault : PolicyFault)
  | overlappingHours (layer : Layer) (first second : OpeningHour)
deriving DecidableEq, Repr

def ValidationError.message : ValidationError → String
  | invalidDayTime text => "invalid time of day " ++ quote text
  | emptyRange start stop => s!"range start {start} is not before end {stop}"
  | invalidRange text => "invalid time range " ++ quote text
  | invalidMonthDay text => "invalid month/day " ++ quote text
  | invalidWeekday text => "invalid weekday " ++ quote text
  | invalidDoorState text => "invalid door state " ++ quote text
  | invalidPolicy fault => "invalid scheduler policy: " ++ fault.message
  | overlappingHours layer first second =>
    "overlapping opening hours " ++ first.shown ++ " and " ++ second.shown ++ " in " ++ layer.shown

inductive SchedulerError
  | stopped
  | alreadyStarted
  | requestTimedOut
  | commandTimedOut (command : Command)
deriving DecidableEq, Repr

def SchedulerError.message : SchedulerError → String
  | stopped => "door scheduler stopped"
  | alreadyStarted => "door scheduler already started"
  | requestTimedOut => "door scheduler did not accept the request in time"
  | commandTimedOut command => "door command " ++ command.name ++ " timed out"

inductive HardwareFault
  | offline
  | notConnected
  | invalidQos (level : Nat)
  | topicRefused
deriving DecidableEq, Repr

def HardwareFault.message : HardwareFault → String
  | offline => "virtual door is offline"
  | notConnected => "MQTT client not connected"
  | invalidQos level => s!"invalid MQTT QoS level {level}"
  | topicRefused => "MQTT client error"

inductive HolidayFault
  | unknownCountry (country : String)
deriving DecidableEq, Repr

def HolidayFault.message : HolidayFault → String
  | unknownCountry country => "no holidays configured for country " ++ quote country

inductive Failure
  | validation (cause : ValidationError)
  | hardware (cause : HardwareFault)
  | holidayLookup (cause : HolidayFault)
  | scheduler (cause : SchedulerError)
deriving DecidableEq, Repr

namespace Failure

def message : Failure → String
  | validation _ => "validation error"
  | hardware _ => "door hardware error"
  | holidayLookup _ => "holiday lookup failed"
  | scheduler _ => "door scheduler error"

end Failure

end EntryDoor
