import EntryDoor.Calendar.Date
import EntryDoor.Text.Numeral

namespace EntryDoor

open Text

-- The 29th of February is such a day, and occurs in leap years only.
structure MonthDay where
  month : Nat
  day : Nat
  exists_in_leap_year : Date.IsCivil 2000 month day
deriving DecidableEq, Repr

namespace MonthDay

instance : Inhabited MonthDay := ⟨⟨1, 1, by decide⟩⟩

def new? (month day : Nat) : Option MonthDay :=
  if h : Date.IsCivil 2000 month day then some ⟨month, day, h⟩ else none

def all : List MonthDay :=
  (List.range' 1 12).flatMap fun m => (List.range' 1 31).filterMap fun d => new? m d

theorem mem_all (d : MonthDay) : d ∈ all := by
  have h := d.exists_in_leap_year
  have hm := Date.month_of_isCivil h
  have hd := Nat.le_trans h.2 (Date.daysIn_le 2000 d.month)
  simp only [all, List.mem_flatMap, List.mem_filterMap, List.mem_range'_1]
  exact ⟨d.month, by omega, d.day, by have := h.1; omega, by simp [new?, h]⟩

def of (d : Date) : MonthDay :=
  ⟨d.month, d.day, d.isCivil_leap_year⟩

def writtenParts (month day : Nat) : List Char :=
  padded 2 month ++ '/' :: padded 2 day

def written (d : MonthDay) : List Char :=
  writtenParts d.month d.day

instance : ToString MonthDay := ⟨fun d => String.ofList d.written⟩

end MonthDay

end EntryDoor
