import EntryDoor.Holidays
import EntryDoor.Hours.RuleSet

namespace EntryDoor

structure Schedule where
  rules : RuleSet
  zone : Zone
  country : String
  holidays : HolidayProvider

namespace Schedule

def layerFor (s : Schedule) (d : Date) : Layer × List OpeningHour :=
  match s.rules.dated (MonthDay.of d) with
  | some hours => (.dated (MonthDay.of d), hours)
  | none =>
    match s.holidays s.country d with
    | .ok true => (.holiday, s.rules.holiday)
    -- A date about which the calendar cannot tell is no holiday.
    | _ => (.regular d.weekday, s.rules.regular d.weekday)

-- The effective intervals of `d`, in the order of the configured starts.
def hoursOn (s : Schedule) (d : Date) : List Interval :=
  (s.layerFor d).2.map (·.on d s.zone)

def openHoursOn (s : Schedule) (t : Timestamp) (d : Date) : List Interval :=
  (s.hoursOn d).filter fun i => t ≤ i.stop

def gather (s : Schedule) (t : Timestamp) (count : Nat) :
    Nat → Date → Nat → List Interval → List Interval
  | 0, _, _, found => found
  | days + 1, d, slack, found =>
    let found := found ++ s.openHoursOn t d
    if count ≤ found.length then
      match slack with
      | 0 => found
      -- The thresholds of the next day may reach back before what was found.
      | slack + 1 => gather s t count days d.next slack found
    else gather s t count days d.next slack found

def byStart (intervals : List Interval) : List Interval :=
  intervals.mergeSort fun a b => a.start ≤ b.start

def intervalsFrom (s : Schedule) (t : Timestamp) (count days : Nat) : List Interval :=
  if count = 0 ∨ s.rules.isEmpty then []
  else (byStart (s.gather t count days (s.zone.dateAt t).previous 1 [])).take count

-- How far ahead sparse rules are followed, in days.
def lookahead : Nat := 400

def upcoming (s : Schedule) (t : Timestamp) (count : Nat) : List Interval :=
  s.intervalsFrom t count lookahead

def endOfDay (s : Schedule) (t : Timestamp) : Timestamp :=
  s.zone.midnight (s.zone.dateAt t).next

def stateAt (s : Schedule) (t : Timestamp) : Resolved :=
  -- Intervals of yesterday may reach past midnight, and those of tomorrow before it.
  match s.intervalsFrom t 1 3 with
  | [] => .lockedIndefinitely
  | i :: _ =>
    if i.Covers t then ⟨.unlocked, some i.stop⟩
    else if s.endOfDay t ≤ i.start then .lockedIndefinitely
    else ⟨.locked, some i.start⟩

def isOpenAt (s : Schedule) (t : Timestamp) : Bool :=
  (s.stateAt t).state == .unlocked

end Schedule

end EntryDoor
