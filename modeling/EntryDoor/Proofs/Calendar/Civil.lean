import EntryDoor.Calendar.Date

namespace EntryDoor

namespace Date

variable (d : Date)

theorem yearOfFour_le : d.yearOfFour ≤ 3 := by
  unfold yearOfFour
  omega

theorem dayOfEra_eq :
    d.dayOfEra = d.centuryOfEra * 36524 + d.dayOfCentury / 1461 * 1461 + d.dayOfFourYears := by
  unfold dayOfFourYears dayOfCentury centuryOfEra
  omega

theorem dayOfFourYears_eq : d.dayOfFourYears = d.yearOfFour * 365 + d.dayOfMarchYear := by
  unfold dayOfMarchYear yearOfFour
  omega

theorem centuryOfEra_le : d.centuryOfEra ≤ 3 := by
  unfold centuryOfEra
  omega

theorem dayOfCentury_le : d.dayOfCentury ≤ 36524 := by
  have : d.dayOfEra ≤ 146096 := by
    unfold dayOfEra
    omega
  unfold dayOfCentury centuryOfEra
  omega

theorem yearOfEra_le : d.yearOfEra ≤ 399 := by
  have := d.centuryOfEra_le
  have := d.dayOfCentury_le
  have := d.yearOfFour_le
  unfold yearOfEra
  omega

theorem monthsSinceMarch_le : d.monthsSinceMarch ≤ 11 := by
  have := d.dayOfMarchYear_le
  unfold monthsSinceMarch
  omega

theorem dayOfMonth_eq :
    (153 * d.monthsSinceMarch + 2) / 5 + (d.day - 1) = d.dayOfMarchYear := by
  unfold day monthsSinceMarch
  omega

theorem month_eq :
    (if d.month ≤ 2 then d.month + 9 else d.month - 3) = d.monthsSinceMarch := by
  have := d.monthsSinceMarch_le
  unfold month
  dsimp only
  split <;> split <;> omega

theorem marchYear_eq : (if d.month ≤ 2 then d.year - 1 else d.year) =
    (d.dayNumber + epochOffset) / 146097 * 400 + d.yearOfEra := by
  unfold year
  split <;> omega

-- The days of the full years before: 365 for each, and the leap days of its centuries and of the four years
-- within them.
theorem daysOfYears_eq : d.yearOfEra * 365 + d.yearOfEra / 4 - d.yearOfEra / 100 =
    d.centuryOfEra * 36524 + d.dayOfCentury / 1461 * 1461 + d.yearOfFour * 365 := by
  have hcentury := d.dayOfCentury_le
  have hfour := d.yearOfFour_le
  have hyear : d.yearOfEra =
      d.centuryOfEra * 100 + d.dayOfCentury / 1461 * 4 + d.yearOfFour := rfl
  have hleap : d.yearOfEra / 4 = d.centuryOfEra * 25 + d.dayOfCentury / 1461 := by omega
  have hcommon : d.yearOfEra / 100 = d.centuryOfEra := by omega
  omega

theorem ofCivil_civil : ofCivil d.year d.month d.day = d := by
  have hyear := d.yearOfEra_le
  have hera : ((d.dayNumber + epochOffset) / 146097 * 400 + (d.yearOfEra : Int)) / 400 =
      (d.dayNumber + epochOffset) / 146097 := by omega
  have hof : (((d.dayNumber + epochOffset) / 146097 * 400 + (d.yearOfEra : Int)) % 400).toNat =
      d.yearOfEra := by omega
  have hdays : d.yearOfEra * 365 + d.yearOfEra / 4 - d.yearOfEra / 100 + d.dayOfMarchYear =
      d.dayOfEra := by
    rw [d.daysOfYears_eq, d.dayOfEra_eq, d.dayOfFourYears_eq, Nat.add_assoc]
  have hday : d.dayNumber =
      (d.dayNumber + epochOffset) / 146097 * 146097 + d.dayOfEra - epochOffset := by
    unfold dayOfEra
    omega
  unfold ofCivil
  dsimp only
  rw [d.month_eq, d.marchYear_eq, d.dayOfMonth_eq, hera, hof, hdays, ← hday]

theorem daysIn_of_ne {month : Nat} (h : month ≠ 2) (year year' : Int) :
    daysIn year month = daysIn year' month := by
  unfold daysIn
  split
  case h_1 => exact absurd rfl h
  all_goals rfl

-- The last day of a year that starts with March, if it has 366, is the last one of four years.
theorem yearOfFour_of_leapDay (h : d.dayOfMarchYear = 365) :
    d.yearOfFour = 3 ∧ d.dayOfCentury % 1461 = 1460 := by
  have hfour := d.dayOfFourYears_eq
  have hlt : d.dayOfFourYears < 1461 := Nat.mod_lt _ (by decide)
  have hyear : d.yearOfFour = 3 := by
    unfold yearOfFour at hfour ⊢
    omega
  have hmod : d.dayOfCentury % 1461 = d.dayOfFourYears := rfl
  omega

-- Only the last century of an era ends with a leap day.
theorem centuryOfEra_of_lt (h : 36523 < d.dayOfCentury) : d.centuryOfEra = 3 := by
  unfold dayOfCentury at h
  unfold centuryOfEra at h ⊢
  omega

theorem isLeap_of_leapDay (hm : d.month = 2) (h : d.dayOfMarchYear = 365) : isLeap d.year := by
  have ⟨hfour, hday⟩ := d.yearOfFour_of_leapDay h
  have hcentury := d.dayOfCentury_le
  have hlast := d.centuryOfEra_of_lt
  have hyear : d.year = (d.dayNumber + epochOffset) / 146097 * 400 +
      ((d.centuryOfEra * 100 + d.dayOfCentury / 1461 * 4 + 3 : Nat) : Int) + 1 := by
    rw [year, if_pos (Nat.le_of_eq hm), yearOfEra, hfour]
  have h4 : d.year % 4 = 0 := by omega
  have h100 : d.year % 100 ≠ 0 ∨ d.year % 400 = 0 := by omega
  simpa [isLeap, h4] using h100

theorem isCivil : IsCivil d.year d.month d.day := by
  have ⟨hpos, hle⟩ := d.isCivil_leap_year
  refine ⟨hpos, ?_⟩
  by_cases hm : d.month = 2
  case neg => rwa [daysIn_of_ne hm d.year 2000]
  case pos =>
    rw [hm] at hle ⊢
    show d.day ≤ if isLeap d.year then 29 else 28
    split
    case isTrue => exact hle
    case isFalse hleap =>
      have hlast : d.dayOfMarchYear ≠ 365 := fun h => hleap (d.isLeap_of_leapDay hm h)
      have hle := d.dayOfMarchYear_le
      have hday := d.dayOfMonth_eq
      rw [← d.month_eq, hm, if_pos (Nat.le_refl 2)] at hday
      omega

theorem ofCivil?_civil : ofCivil? d.year d.month d.day = some d := by
  rw [ofCivil?, if_pos d.isCivil, d.ofCivil_civil]

-- A day by its place in an era: the century, the four years, the year and the day of a year that starts with March.
-- Only the last year of four has a day more than 365, and that of the last four only in the last century.
structure InEra (d : Date) (era : Int) (c q r n : Nat) : Prop where
  number : d.dayNumber + epochOffset = era * 146097 + (c * 36524 + q * 1461 + r * 365 + n : Nat)
  century : c ≤ 3
  four : q ≤ 24
  year : r ≤ 3
  day : n ≤ 365
  leap : n = 365 → r = 3 ∧ (q = 24 → c = 3)

namespace InEra

variable {d : Date} {era : Int} {c q r n : Nat} (h : InEra d era c q r n)

include h

theorem era_eq : (d.dayNumber + epochOffset) / 146097 = era := by
  have ⟨hd, hc, hq, hr, hn, hl⟩ := h
  omega

theorem dayOfEra_eq : d.dayOfEra = c * 36524 + q * 1461 + r * 365 + n := by
  have ⟨hd, hc, hq, hr, hn, hl⟩ := h
  unfold dayOfEra
  omega

theorem centuryOfEra_eq : d.centuryOfEra = c := by
  have ⟨hd, hc, hq, hr, hn, hl⟩ := h
  unfold centuryOfEra
  rw [h.dayOfEra_eq]
  omega

theorem dayOfCentury_eq : d.dayOfCentury = q * 1461 + r * 365 + n := by
  unfold dayOfCentury
  rw [h.dayOfEra_eq, h.centuryOfEra_eq]
  omega

theorem dayOfFourYears_eq : d.dayOfFourYears = r * 365 + n := by
  have ⟨hd, hc, hq, hr, hn, hl⟩ := h
  unfold dayOfFourYears
  rw [h.dayOfCentury_eq]
  omega

theorem yearOfFour_eq : d.yearOfFour = r := by
  have ⟨hd, hc, hq, hr, hn, hl⟩ := h
  unfold yearOfFour
  rw [h.dayOfFourYears_eq]
  omega

theorem dayOfMarchYear_eq : d.dayOfMarchYear = n := by
  unfold dayOfMarchYear
  rw [h.dayOfFourYears_eq, h.yearOfFour_eq]
  omega

theorem yearOfEra_eq : d.yearOfEra = c * 100 + q * 4 + r := by
  have ⟨hd, hc, hq, hr, hn, hl⟩ := h
  unfold yearOfEra
  rw [h.centuryOfEra_eq, h.dayOfCentury_eq, h.yearOfFour_eq]
  omega

end InEra

section

variable {year : Int} {month day : Nat}

-- The year that starts with March, and the number of the month in it, from 0 to 11.
def marchYear (year : Int) (month : Nat) : Int :=
  if month ≤ 2 then year - 1 else year

def marchMonth (month : Nat) : Nat :=
  if month ≤ 2 then month + 9 else month - 3

-- The day in that year.
def marchDay (month day : Nat) : Nat :=
  (153 * marchMonth month + 2) / 5 + (day - 1)

theorem ofCivil_eq (year : Int) (month day : Nat) :
    (ofCivil year month day).dayNumber + epochOffset = marchYear year month / 400 * 146097 +
      ((marchYear year month % 400).toNat * 365 + (marchYear year month % 400).toNat / 4 -
        (marchYear year month % 400).toNat / 100 + marchDay month day : Nat) := by
  simp only [ofCivil, marchYear, marchDay, marchMonth]
  omega

-- A day of the calendar lies in its month, and is the 366th of the year only if it is a leap day.
theorem marchDay_of_isCivil (h : IsCivil year month day) :
    (5 * marchDay month day + 2) / 153 = marchMonth month ∧
      (marchDay month day < 365 ∨ marchDay month day = 365 ∧ month = 2 ∧ isLeap year) := by
  have ⟨hpos, hle⟩ := month_of_isCivil h
  have ⟨hday, hlen⟩ := h
  have : month = 1 ∨ month = 2 ∨ month = 3 ∨ month = 4 ∨ month = 5 ∨ month = 6 ∨ month = 7 ∨
    month = 8 ∨ month = 9 ∨ month = 10 ∨ month = 11 ∨ month = 12 := by omega
  rcases this with h | h | h | h | h | h | h | h | h | h | h | h <;> subst h <;>
    simp only [daysIn, marchDay, marchMonth] at hlen ⊢
  case inr.inl =>
    split at hlen
    case isTrue hl => simp only [hl, Nat.reduceLeDiff, if_true, and_true]; omega
    case isFalse => simp only [Nat.reduceLeDiff, if_true]; omega
  all_goals
    simp only [Nat.reduceLeDiff, if_true, if_false]
    omega

theorem inEra_ofCivil (h : IsCivil year month day) : ∃ era c q r,
    InEra (ofCivil year month day) era c q r (marchDay month day) ∧
      marchYear year month = era * 400 + (c * 100 + q * 4 + r : Nat) := by
  have ⟨_, hlast⟩ := marchDay_of_isCivil h
  have hn := ofCivil_eq year month day
  have hy : month = 2 → marchYear year month = year - 1 := by
    rintro rfl
    rfl
  generalize marchYear year month = y at *
  generalize marchDay month day = n at *
  refine ⟨y / 400, (y % 400).toNat / 100, (y % 400).toNat % 100 / 4, (y % 400).toNat % 4,
    ⟨by omega, by omega, by omega, by omega, by omega, ?_⟩, by omega⟩
  intro hl
  rcases hlast with hlast | ⟨-, hm, hleap⟩
  case inl => omega
  case inr =>
    have hy := hy hm
    simp only [isLeap, Bool.and_eq_true, Bool.or_eq_true, beq_iff_eq, bne_iff_ne] at hleap
    omega

theorem civil_ofCivil (h : IsCivil year month day) : (ofCivil year month day).year = year ∧
    (ofCivil year month day).month = month ∧ (ofCivil year month day).day = day := by
  have ⟨hpos, hle⟩ := month_of_isCivil h
  have ⟨hmonth, _⟩ := marchDay_of_isCivil h
  have ⟨era, c, q, r, he, hy⟩ := inEra_ofCivil h
  have hsince : (ofCivil year month day).monthsSinceMarch = marchMonth month := by
    rw [monthsSinceMarch, he.dayOfMarchYear_eq, hmonth]
  have hm : (ofCivil year month day).month = month := by
    unfold Date.month
    rw [hsince, marchMonth]
    dsimp only
    split <;> split <;> omega
  refine ⟨?_, hm, ?_⟩
  case refine_1 =>
    rw [Date.year, hm, he.era_eq, he.yearOfEra_eq]
    unfold marchYear at hy
    split at hy <;> split <;> omega
  case refine_2 =>
    have := h.1
    rw [Date.day, he.dayOfMarchYear_eq, hsince, marchDay]
    omega

end

end Date

end EntryDoor
