import EntryDoor.Proofs.Calendar.Civil
import EntryDoor.Proofs.Hours.Spelling

namespace EntryDoor

open Text

namespace Text

variable {s : List Char} {bits n : Nat}

-- A numeral of `n`, which fits into so many bits, with an optional plus sign.
structure Unsigned (bits n : Nat) (s : List Char) : Prop where
  digits : Numeral n s ∨ ∃ t, s = '+' :: t ∧ Numeral n t
  lt : n < Nat.pow 2 bits

-- A numeral does not begin with the sign, so there is nothing to choose.
theorem unsigned?_eq_some_iff : unsigned? bits s = some n ↔ Unsigned bits n s := by
  unfold unsigned?
  simp only [Option.filter_eq_some_iff, numeral?_eq_some_iff, decide_eq_true_eq]
  split
  case h_1 t =>
    have hs : ¬Numeral n ('+' :: t) := fun h =>
      h.not_mem (by decide) (List.mem_cons_self : '+' ∈ '+' :: t)
    refine ⟨fun ⟨hn, hlt⟩ => ⟨.inr ⟨t, rfl, hn⟩, hlt⟩, fun ⟨hd, hlt⟩ => ⟨?_, hlt⟩⟩
    rcases hd with hn | ⟨t', ht, hn⟩
    case inl => exact absurd hn hs
    case inr => cases ht; exact hn
  case h_2 hs =>
    refine ⟨fun ⟨hn, hlt⟩ => ⟨.inl hn, hlt⟩, fun ⟨hd, hlt⟩ => ⟨?_, hlt⟩⟩
    rcases hd with hn | ⟨t, ht, -⟩
    case inl => exact hn
    case inr => exact absurd ht (hs t)

theorem Unsigned.not_mem {mark : Char} (h : Unsigned bits n s) (hm : ¬mark.isDigit)
    (hp : mark ≠ '+') : mark ∉ s := by
  rcases h.digits with hn | ⟨t, rfl, hn⟩
  case inl => exact hn.not_mem hm
  case inr => exact fun ht => (List.mem_cons.mp ht).elim hp (hn.not_mem hm)

end Text

namespace Date

variable {year : Int} {month day : Nat}

theorem daysIn_le_leap_year : daysIn year month ≤ daysIn 2000 month := by
  by_cases hm : month = 2
  case neg => rw [daysIn_of_ne hm year 2000]
  case pos =>
    rw [hm]
    show (if isLeap year then 29 else 28) ≤ 29
    split <;> omega

theorem exists_isCivil_iff : (∃ year, IsCivil year month day) ↔ IsCivil 2000 month day := by
  refine ⟨fun ⟨_, hpos, hle⟩ => ?_, fun h => ⟨2000, h⟩⟩
  exact ⟨hpos, Nat.le_trans hle daysIn_le_leap_year⟩

-- Common years lack the leap day and nothing else.
theorem isCivil_iff (h : IsCivil 2000 month day) :
    IsCivil year month day ↔ (month = 2 ∧ day = 29 → isLeap year) := by
  have ⟨hpos, hle⟩ := h
  by_cases hm : month = 2
  case neg =>
    rw [IsCivil, daysIn_of_ne hm year 2000]
    exact ⟨fun _ hl => absurd hl.1 hm, fun _ => h⟩
  case pos =>
    subst hm
    have hle : day ≤ 29 := hle
    have hy : IsCivil year 2 day ↔ 1 ≤ day ∧ day ≤ if isLeap year then 29 else 28 := Iff.rfl
    rw [hy]
    cases isLeap year
    case true => exact ⟨fun _ _ => rfl, fun _ => ⟨hpos, hle⟩⟩
    case false => simp only [Bool.false_eq_true, if_false, true_and, imp_false]; omega

end Date

namespace MonthDay

variable {k : MonthDay} {s : List Char} {month day : Nat} {date : Date} {year : Int}

theorem eq_iff {k' : MonthDay} : k = k' ↔ k.month = k'.month ∧ k.day = k'.day := by
  cases k
  cases k'
  simp

theorem new?_eq_some_iff : new? month day = some k ↔ k.month = month ∧ k.day = day := by
  unfold new?
  split
  case isTrue h =>
    rw [Option.some.injEq, eq_comm, eq_iff]
  case isFalse h =>
    constructor
    case mp => intro hk; cases hk
    case mpr =>
      rintro ⟨hm, hd⟩
      exact absurd (hm ▸ hd ▸ k.exists_in_leap_year) h

theorem new_eq_ok_iff : new month day = .ok k ↔ k.month = month ∧ k.day = day := by
  rw [← new?_eq_some_iff, new]
  split <;> simp_all

-- Two numbers of 32 bits with a slash between them.
def Spells (month day : Nat) (s : List Char) : Prop :=
  ∃ a b, s = a ++ '/' :: b ∧ Unsigned 32 month a ∧ Unsigned 32 day b

theorem ofChars?_eq_some_iff : ofChars? s = some k ↔ Spells k.month k.day (trim s) := by
  simp only [ofChars?, Option.bind_eq_bind, Option.bind_eq_some_iff]
  constructor
  case mp =>
    rintro ⟨⟨a, b⟩, hs, month, hm, day, hd, hk⟩
    obtain ⟨rfl, rfl⟩ := new?_eq_some_iff.mp hk
    exact ⟨a, b, (eq_append_of_splitAt? hs).1, unsigned?_eq_some_iff.mp hm,
      unsigned?_eq_some_iff.mp hd⟩
  case mpr =>
    rintro ⟨a, b, hs, hm, hd⟩
    have ha : '/' ∉ a := hm.not_mem (by decide) (by decide)
    exact ⟨(a, b), splitAt?_eq_some_iff.mpr ⟨hs, ha⟩, k.month, unsigned?_eq_some_iff.mpr hm, k.day,
      unsigned?_eq_some_iff.mpr hd, new?_eq_some_iff.mpr ⟨rfl, rfl⟩⟩

theorem read_eq_ok_iff {s : String} : read s = .ok k ↔ Spells k.month k.day (trim s.toList) := by
  rw [← ofChars?_eq_some_iff, read]
  split <;> simp_all

theorem eq_of_iff : k = of date ↔ date.month = k.month ∧ date.day = k.day := by
  rw [eq_iff, eq_comm, @eq_comm _ k.day]
  rfl

-- The years in which some date falls on the day.
theorem exists_date_iff : (∃ date : Date, date.year = year ∧ of date = k) ↔
    (k.month = 2 ∧ k.day = 29 → Date.isLeap year) := by
  rw [← Date.isCivil_iff k.exists_in_leap_year]
  constructor
  case mp =>
    rintro ⟨date, rfl, rfl⟩
    exact date.isCivil
  case mpr =>
    intro h
    have ⟨hy, hm, hd⟩ := Date.civil_ofCivil h
    exact ⟨_, hy, (eq_of_iff.mpr ⟨hm, hd⟩).symm⟩

-- What comes of reading `s` as a recurring day, and of looking for it under the days of dates.
structure Reads (s : String) : Prop where
  accepts : ∀ month day, (∃ k, read s = .ok k ∧ k.month = month ∧ k.day = day) ↔
    Spells month day (trim s.toList) ∧ ∃ year, Date.IsCivil year month day
  rejects : (∀ k, read s ≠ .ok k) → read s = .error (.invalidMonthDay s)
  found : ∀ k date, read s = .ok k → (k = of date ↔ date.month = k.month ∧ date.day = k.day)
  -- The day of a date is one like any other, and any other is the day of some date.
  checked : ∀ date : Date, new date.month date.day = .ok (of date)
  written : ∀ date : Date, read (toString (of date)) = .ok (of date)
  occurs : ∀ month day k, new month day = .ok k → ∃ date, of date = k
  leapDay : ∀ k year, (∃ date : Date, date.year = year ∧ of date = k) ↔
    (k.month = 2 ∧ k.day = 29 → Date.isLeap year)

theorem readsKeys (s : String) : Reads s where
  accepts month day := by
    rw [Date.exists_isCivil_iff]
    constructor
    case mp =>
      rintro ⟨k, hk, rfl, rfl⟩
      exact ⟨read_eq_ok_iff.mp hk, k.exists_in_leap_year⟩
    case mpr =>
      rintro ⟨hs, hc⟩
      exact ⟨⟨month, day, hc⟩, read_eq_ok_iff.mpr hs, rfl, rfl⟩
  rejects h := by
    unfold read at h ⊢
    split
    case h_1 k hk => exact absurd rfl (hk ▸ h k)
    case h_2 => rfl
  found _ _ _ := eq_of_iff
  checked _ := new_eq_ok_iff.mpr ⟨rfl, rfl⟩
  written date := (of date).read_toString
  occurs _ _ k _ := by
    have ⟨date, _, hd⟩ := (@exists_date_iff k 2000).mpr fun _ => rfl
    exact ⟨date, hd⟩
  leapDay _ _ := exists_date_iff

end MonthDay

end EntryDoor
