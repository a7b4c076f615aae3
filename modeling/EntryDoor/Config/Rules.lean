import EntryDoor.Config.Load
import EntryDoor.Schedule

namespace EntryDoor

namespace HoursEntry

def hours (e : HoursEntry) : List OpeningHour :=
  e.timeRanges.map fun range => {
    range
    openBefore := .ofMinutes e.openBeforeMinutes
    closeAfter := .ofMinutes e.closeAfterMinutes
    onHolidays := decide (e.holiday ≠ .no) }

-- Without hours the date is closed.
def addDated (e : HoursEntry) (b : RuleSetBuilder) (day : MonthDay) : RuleSetBuilder :=
  match e.hours with
  | [] => b.closeOn day
  | hours => hours.foldl (fun b h => b.addDated day h) b

def addWeekday (e : HoursEntry) (b : RuleSetBuilder) (name : String) :
    Except ValidationError RuleSetBuilder := do
  let day ← Weekday.read name
  return e.hours.foldl (fun b h => b.addRegular day h) b

-- Hours that several entries give to holidays count once.
def addHolidays (e : HoursEntry) (b : RuleSetBuilder) : RuleSetBuilder :=
  e.hours.foldl (fun b h => if h ∈ b.holiday then b else b.addHoliday h) b

def addTo (e : HoursEntry) (b : RuleSetBuilder) : Except ValidationError RuleSetBuilder := do
  if e.dates ≠ [] then
    return e.dates.foldl e.addDated b
  let b ← if e.holiday = .only then pure b else e.weekdays.foldlM e.addWeekday b
  return if e.holiday = .no then b else e.addHolidays b

end HoursEntry

namespace Config

def ruleSet (c : Config) : Except ConfigError RuleSet :=
  Except.mapError .rules do
    let b ← c.openingHours.foldlM (fun b e => e.addTo b) RuleSetBuilder.empty
    b.build

def scheduleOf (c : Config) (rules : RuleSet) : Schedule where
  rules
  zone := c.location.zone
  country := c.location.country
  holidays := c.holidayCalendar.provider

def schedule (c : Config) : Except ConfigError Schedule := do
  return c.scheduleOf (← c.ruleSet)

end Config

end EntryDoor
