import EntryDoor.Calendar.Weekday

namespace EntryDoor

structure Date where
  dayNumber : Int
deriving DecidableEq, Repr, Inhabited

namespace Date

def isLeap (year : Int) : Bool :=
  year % 4 == 0 && (year % 100 != 0 || year % 400 == 0)

def daysIn (year : Int) (month : Nat) : Nat :=
  match month with
  | 2 => if isLeap year then 29 else 28
  | 4 | 6 | 9 | 11 => 30
  | 1 | 3 | 5 | 7 | 8 | 10 | 12 => 31
  | _ => 0

def IsCivil (year : Int) (month day : Nat) : Prop :=
  1 ≤ day ∧ day ≤ daysIn year month

instance (year : Int) (month day : Nat) : Decidable (IsCivil year month day) := by
  unfold IsCivil
  infer_instance

-- Days from 0000-03-01 to 1970-01-01. Year, month and day are computed over eras of 400 years, each cut before
-- March, so that the leap day is the last day of its year.
def epochOffset : Int := 719468

def dayOfEra (d : Date) : Nat :=
  ((d.dayNumber + epochOffset) % 146097).toNat

-- The last century of an era has a day more than the others.
def centuryOfEra (d : Date) : Nat :=
  min (d.dayOfEra / 36524) 3

def dayOfCentury (d : Date) : Nat :=
  d.dayOfEra - d.centuryOfEra * 36524

-- The last day of four years is the leap day.
def dayOfFourYears (d : Date) : Nat :=
  d.dayOfCentury % 1461

def yearOfFour (d : Date) : Nat :=
  min (d.dayOfFourYears / 365) 3

def yearOfEra (d : Date) : Nat :=
  d.centuryOfEra * 100 + d.dayOfCentury / 1461 * 4 + d.yearOfFour

def dayOfMarchYear (d : Date) : Nat :=
  d.dayOfFourYears - d.yearOfFour * 365

def monthsSinceMarch (d : Date) : Nat :=
  (5 * d.dayOfMarchYear + 2) / 153

def month (d : Date) : Nat :=
  let m := d.monthsSinceMarch
  if m < 10 then m + 3 else m - 9

def day (d : Date) : Nat :=
  d.dayOfMarchYear - (153 * d.monthsSinceMarch + 2) / 5 + 1

def year (d : Date) : Int :=
  (d.dayNumber + epochOffset) / 146097 * 400 + d.yearOfEra + if d.month ≤ 2 then 1 else 0

def ofCivil (year : Int) (month day : Nat) : Date :=
  let y := if month ≤ 2 then year - 1 else year
  let m := if month ≤ 2 then month + 9 else month - 3
  let yearOfEra := (y % 400).toNat
  let dayOfYear := (153 * m + 2) / 5 + (day - 1)
  ⟨y / 400 * 146097 + (yearOfEra * 365 + yearOfEra / 4 - yearOfEra / 100 + dayOfYear : Nat) - epochOffset⟩

def ofCivil? (year : Int) (month day : Nat) : Option Date :=
  if IsCivil year month day then some (ofCivil year month day) else none

def addDays (d : Date) (n : Int) : Date :=
  ⟨d.dayNumber + n⟩

def next (d : Date) : Date := d.addDays 1

def previous (d : Date) : Date := d.addDays (-1)

-- 1970-01-01 was a Thursday.
def weekday (d : Date) : Weekday :=
  .ofIndex ((d.dayNumber + 3) % 7).toNat

theorem dayOfMarchYear_le (d : Date) : d.dayOfMarchYear ≤ 365 := by
  unfold dayOfMarchYear yearOfFour dayOfFourYears
  omega

theorem daysIn_le (year : Int) (month : Nat) : daysIn year month ≤ 31 := by
  unfold daysIn
  split
  · split <;> decide
  all_goals decide

theorem month_of_isCivil {year : Int} {month day : Nat} (h : IsCivil year month day) :
    1 ≤ month ∧ month ≤ 12 := by
  simp only [IsCivil, daysIn] at h
  split at h <;> omega

theorem isCivil_leap_year (d : Date) : IsCivil 2000 d.month d.day := by
  have h := d.dayOfMarchYear_le
  have hm : d.monthsSinceMarch ≤ 11 := by
    unfold monthsSinceMarch
    omega
  have hd : d.monthsSinceMarch = (5 * d.dayOfMarchYear + 2) / 153 := rfl
  unfold IsCivil month day
  generalize d.monthsSinceMarch = m at hm hd ⊢
  generalize d.dayOfMarchYear = n at h hd ⊢
  have : m = 0 ∨ m = 1 ∨ m = 2 ∨ m = 3 ∨ m = 4 ∨ m = 5 ∨ m = 6 ∨ m = 7 ∨ m = 8 ∨ m = 9 ∨
    m = 10 ∨ m = 11 := by omega
  rcases this with h | h | h | h | h | h | h | h | h | h | h | h <;> subst h <;>
    simp [daysIn, isLeap] <;> omega

-- The years that texts can name.
def InRange (d : Date) : Prop :=
  -262143 ≤ d.year ∧ d.year ≤ 262142

instance (d : Date) : Decidable d.InRange := by
  unfold InRange
  infer_instance

end Date

end EntryDoor
