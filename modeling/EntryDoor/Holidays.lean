import EntryDoor.Error
import EntryDoor.Text.Blank

namespace EntryDoor

abbrev HolidayProvider := String → Date → Except HolidayFault Bool

def HolidayProvider.none : HolidayProvider := fun _ _ => .ok false

structure HolidayCalendar where
  country : String
  fixed : List Date
  recurring : List MonthDay
deriving DecidableEq, Repr

namespace HolidayCalendar

def size (c : HolidayCalendar) : Nat :=
  c.fixed.eraseDups.length + c.recurring.eraseDups.length

def SameCountry (a b : String) : Prop :=
  Text.lowerAscii a.toList = Text.lowerAscii b.toList

instance (a b : String) : Decidable (SameCountry a b) := by
  unfold SameCountry
  infer_instance

def Contains (c : HolidayCalendar) (d : Date) : Prop :=
  d ∈ c.fixed ∨ MonthDay.of d ∈ c.recurring

instance (c : HolidayCalendar) (d : Date) : Decidable (c.Contains d) := by
  unfold Contains
  infer_instance

-- The answers of the calendar; it knows its own country only.
def provider (c : HolidayCalendar) : HolidayProvider := fun country d =>
  if SameCountry c.country country then .ok (decide (c.Contains d))
  else .error (.unknownCountry country)

end HolidayCalendar

end EntryDoor
