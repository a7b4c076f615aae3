import EntryDoor.Calendar.Zone
import EntryDoor.Interval

namespace EntryDoor

open Text

structure DayTime where
  hour : Nat
  minute : Nat
  hour_lt : hour < 24
  minute_lt : minute < 60
deriving DecidableEq, Repr

namespace DayTime

def midnight : DayTime := ⟨0, 0, by decide, by decide⟩

instance : Inhabited DayTime := ⟨midnight⟩

def minutes (d : DayTime) : Nat :=
  d.hour * 60 + d.minute

theorem minutes_lt (d : DayTime) : d.minutes < 1440 := by
  have := d.hour_lt
  have := d.minute_lt
  unfold minutes
  omega

instance : LE DayTime := ⟨fun a b => a.minutes ≤ b.minutes⟩

instance : LT DayTime := ⟨fun a b => a.minutes < b.minutes⟩

instance (a b : DayTime) : Decidable (a ≤ b) :=
  inferInstanceAs (Decidable (a.minutes ≤ b.minutes))

instance (a b : DayTime) : Decidable (a < b) :=
  inferInstanceAs (Decidable (a.minutes < b.minutes))

theorem le_def {a b : DayTime} : a ≤ b ↔ a.minutes ≤ b.minutes := Iff.rfl

theorem lt_def {a b : DayTime} : a < b ↔ a.minutes < b.minutes := Iff.rfl

def ofMinutes? (n : Nat) : Option DayTime :=
  if h : n < 1440 then some ⟨n / 60, n % 60, by omega, by omega⟩ else none

def writtenParts (hour minute : Nat) : List Char :=
  padded 2 hour ++ ':' :: padded 2 minute

def written (d : DayTime) : List Char :=
  writtenParts d.hour d.minute

instance : ToString DayTime := ⟨fun d => String.ofList d.written⟩

def wallTime (d : DayTime) (date : Date) : WallTime :=
  date.dayNumber * 86400 + d.minutes * 60

def on (d : DayTime) (date : Date) (zone : Zone) : Timestamp :=
  .ofSeconds (zone.resolve (d.wallTime date))

end DayTime

structure DayTimeRange where
  start : DayTime
  stop : DayTime
  start_lt_stop : start < stop
deriving DecidableEq, Repr

namespace DayTimeRange

def written (r : DayTimeRange) : List Char :=
  r.start.written ++ " - ".toList ++ r.stop.written

instance : ToString DayTimeRange := ⟨fun r => String.ofList r.written⟩

-- A change of the clocks may turn the range around.
def on (r : DayTimeRange) (date : Date) (zone : Zone) : Interval :=
  ⟨r.start.on date zone, r.stop.on date zone⟩

end DayTimeRange

end EntryDoor
