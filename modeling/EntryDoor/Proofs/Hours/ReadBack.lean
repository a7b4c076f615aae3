import EntryDoor.Hours.Reading
import EntryDoor.Proofs.Text.Padded

namespace EntryDoor

open Text

namespace DayTime

variable (d : DayTime)

theorem not_isBlank_of_mem_written {c : Char} : c ∈ d.written → ¬isBlank c :=
  not_isBlank_of_mem (by decide)

theorem written_ne_nil : d.written ≠ [] := by
  simp [written, writtenParts]

theorem dash_not_mem_written : '-' ∉ d.written := by
  intro h
  rcases isDigit_or_eq_of_mem h with hc | hc
  case inl => cases hc
  case inr => cases hc

theorem ofChars_written : ofChars d.written = .ok d := by
  have h : ofChars? d.written = some d := by
    rw [ofChars?, written, writtenParts, splitAt?_append (not_mem_padded (by decide))]
    simp only [Option.bind_eq_bind, Option.bind_some, numeral?_padded]
    exact dif_pos ⟨d.hour_lt, d.minute_lt⟩
  rw [ofChars, h]

theorem read_toString : read (toString d) = .ok d := by
  have hs : (toString d).toList = d.written := String.toList_ofList
  rw [read, hs, d.ofChars_written]

end DayTime

namespace DayTimeRange

variable (r : DayTimeRange)

-- The blanks around the hyphen belong to neither time.
theorem read_toString : read (toString r) = .ok r := by
  have hs : (toString r).toList = r.written := String.toList_ofList
  have hsplit : splitAt? '-' r.written = some (r.start.written ++ [' '], ' ' :: r.stop.written) := by
    have hw : r.written = (r.start.written ++ [' ']) ++ '-' :: ' ' :: r.stop.written := by
      rw [written, List.append_assoc, List.append_assoc]
      rfl
    rw [hw]
    exact splitAt?_append (by simp [r.start.dash_not_mem_written])
  have hdash : '-' ∉ ' ' :: r.stop.written := by simp [r.stop.dash_not_mem_written]
  have hstart : trim (r.start.written ++ [' ']) = r.start.written :=
    trim_append (a := []) (fun _ => r.start.not_isBlank_of_mem_written) r.start.written_ne_nil nofun
      (by simp; decide)
  have hstop : trim (' ' :: r.stop.written) = r.stop.written := by
    have h := trim_append (a := [' ']) (b := []) (fun _ => r.stop.not_isBlank_of_mem_written)
      r.stop.written_ne_nil (by simp; decide) nofun
    rwa [List.append_nil] at h
  rw [read, hs, ofChars, hsplit]
  dsimp only
  rw [if_neg hdash, hstart, hstop, DayTime.ofChars_written, DayTime.ofChars_written]
  exact dif_pos r.start_lt_stop

end DayTimeRange

namespace MonthDay

variable (d : MonthDay)

theorem not_isBlank_of_mem_written {c : Char} : c ∈ d.written → ¬isBlank c :=
  not_isBlank_of_mem (by decide)

theorem ofChars?_written : ofChars? d.written = some d := by
  have hm := (Date.month_of_isCivil d.exists_in_leap_year).2
  have hd := Nat.le_trans d.exists_in_leap_year.2 (Date.daysIn_le 2000 d.month)
  have htrim : trim d.written = d.written := by
    have h := trim_append (a := []) (b := []) (fun _ => d.not_isBlank_of_mem_written)
      (by simp [written, writtenParts]) nofun nofun
    rwa [List.append_nil] at h
  rw [ofChars?, htrim, written, writtenParts, splitAt?_append (not_mem_padded (by decide))]
  simp only [Option.bind_eq_bind, Option.bind_some]
  rw [unsigned?_padded (Nat.lt_of_le_of_lt hm (by decide)),
    unsigned?_padded (Nat.lt_of_le_of_lt hd (by decide))]
  exact dif_pos d.exists_in_leap_year

theorem read_toString : read (toString d) = .ok d := by
  have hs : (toString d).toList = d.written := String.toList_ofList
  rw [read, hs, d.ofChars?_written]

end MonthDay

end EntryDoor
