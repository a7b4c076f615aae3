import EntryDoor.Hours.DayTime

namespace EntryDoor

structure OpeningHour where
  range : DayTimeRange
  openBefore : Duration := .zero
  closeAfter : Duration := .zero
  onHolidays : Bool := false
deriving DecidableEq, Repr

namespace OpeningHour

-- A threshold of so many seconds. There is none before zero.
def thresholdOfSeconds (seconds : Int) : Duration :=
  .ofSeconds seconds.toNat

-- It may lie on the day before.
def opensAt (h : OpeningHour) : Int :=
  h.range.start.minutes - h.openBefore.minutes

def closesAt (h : OpeningHour) : Int :=
  h.range.stop.minutes + h.closeAfter.minutes

theorem opensAt_lt_closesAt (h : OpeningHour) : h.opensAt < h.closesAt := by
  have := DayTime.lt_def.mp h.range.start_lt_stop
  unfold opensAt closesAt
  omega

def on (h : OpeningHour) (date : Date) (zone : Zone) : Interval :=
  let i := h.range.on date zone
  ⟨i.start - h.openBefore, i.stop + h.closeAfter⟩

def shown (h : OpeningHour) : String :=
  String.ofList ('<' :: h.range.written ++ ['>'])

end OpeningHour

end EntryDoor
