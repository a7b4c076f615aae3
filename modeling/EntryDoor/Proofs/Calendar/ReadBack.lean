import EntryDoor.Calendar.Written
import EntryDoor.Proofs.Calendar.Civil
import EntryDoor.Proofs.Text.Padded

namespace EntryDoor

open Text

variable {c : Char} {r : List Char} {n : Nat}

theorem expect?_cons : expect? c (c :: r) = some r :=
  if_pos rfl

theorem field?_padded (h : n < 100) : field? (padded 2 n ++ r) = some (n, r) := by
  rw [field?, trimStart_padded]
  exact digits?_padded (by decide) h

theorem year?_padded (h : n ≤ 9999) : year? (padded 4 n ++ r) = some ((n : Int), r) := by
  have hd : digits? 4 (padded 4 n ++ r) = some (n, r) :=
    digits?_padded (by decide) (Nat.lt_succ_of_le h)
  have ⟨c, s, hp, hc⟩ := exists_padded_eq_cons 4 n
  unfold year?
  rw [trimStart_padded]
  rw [hp] at hd ⊢
  split
  case h_1 hs => cases hs; cases hc
  case h_2 hs => cases hs; cases hc
  case h_3 => rw [hd]; rfl

theorem year?_writtenYear (y : Int) : year? (Date.writtenYear y ++ '-' :: r) = some (y, '-' :: r) := by
  unfold Date.writtenYear
  split
  case isTrue h =>
    rw [year?_padded (by omega), Int.toNat_of_nonneg h.1]
  case isFalse =>
    split
    case isTrue hneg =>
      show (digitRun? (padded 4 y.natAbs ++ '-' :: r)).map _ = _
      rw [digitRun?_padded (by decide)]
      have hy : -(y.natAbs : Int) = y := by omega
      exact congrArg (fun y => some (y, '-' :: r)) hy
    case isFalse hpos =>
      show (digitRun? (padded 4 y.natAbs ++ '-' :: r)).map _ = _
      rw [digitRun?_padded (by decide)]
      have hy : (y.natAbs : Int) = y := by omega
      exact congrArg (fun y => some (y, '-' :: r)) hy

theorem Date.month_le (d : Date) : d.month ≤ 12 :=
  (month_of_isCivil d.isCivil).2

theorem Date.day_le (d : Date) : d.day ≤ 31 :=
  Nat.le_trans d.isCivil.2 (daysIn_le d.year d.month)

theorem leadingDate?_written {d : Date} (h : d.InRange) :
    leadingDate? (d.written ++ r) = some (d, r) := by
  have hm := d.month_le
  have hd := d.day_le
  have hdash : ∀ r, trimStart ('-' :: r) = '-' :: r := fun r => trimStart_cons (by decide)
  simp only [leadingDate?, Date.written, List.append_assoc, List.cons_append, year?_writtenYear,
    Option.bind_eq_bind, Option.bind_some, hdash, expect?_cons]
  rw [field?_padded (by omega)]
  simp only [Option.bind_some, hdash, expect?_cons]
  rw [field?_padded (by omega)]
  simp only [Option.bind_some, d.ofCivil?_civil, h, if_true]

theorem fractionNanos_padded {width : Nat} (hw : 0 < width) (hle : width ≤ 9)
    (h : n < Nat.pow 10 width) : fractionNanos (padded width n) = n * Nat.pow 10 (9 - width) := by
  have hl := length_padded hw h
  rw [fractionNanos, List.take_of_length_le (by omega), List.rightpad, Nat.ofDigitChars_append,
    ofDigitChars_padded, ofDigitChars_zeros, hl]

theorem fraction?_padded {width : Nat} (hc : ¬c.isDigit) :
    fraction? ('.' :: (padded width n ++ c :: r)) =
      some (fractionNanos (padded width n), c :: r) := by
  show (if (padded width n ++ c :: r).takeWhile Char.isDigit = [] then none
    else some (fractionNanos ((padded width n ++ c :: r).takeWhile Char.isDigit),
      (padded width n ++ c :: r).dropWhile Char.isDigit)) = _
  rw [takeWhile_isDigit_padded hc, dropWhile_isDigit_padded hc, if_neg (padded_ne_nil width n)]

-- Three, six or nine digits, whichever lose nothing.
theorem fraction?_writtenFraction (h : n < 1000000000) (hc : ¬c.isDigit) (hp : c ≠ '.') :
    fraction? (Timestamp.writtenFraction n ++ c :: r) = some (n, c :: r) := by
  unfold Timestamp.writtenFraction
  split
  case isTrue hn =>
    subst hn
    unfold fraction?
    split
    case h_1 hs => cases hs; exact absurd rfl hp
    case h_2 => rfl
  case isFalse =>
    split
    case isTrue hn =>
      have hv : n / 1000000 * 1000000 = n := by omega
      rw [List.cons_append, fraction?_padded hc, fractionNanos_padded (by decide) (by decide)
        (show n / 1000000 < 1000 by omega)]
      exact congrArg (fun n => some (n, c :: r)) hv
    case isFalse =>
      split
      case isTrue hn =>
        have hv : n / 1000 * 1000 = n := by omega
        rw [List.cons_append, fraction?_padded hc, fractionNanos_padded (by decide) (by decide)
          (show n / 1000 < 1000000 by omega)]
        exact congrArg (fun n => some (n, c :: r)) hv
      case isFalse =>
        rw [List.cons_append, fraction?_padded hc, fractionNanos_padded (by decide) (by decide) h]
        exact congrArg (fun n => some (n, c :: r)) (Nat.mul_one n)

namespace Timestamp

variable (t : Timestamp)

theorem secondOfDay_lt : t.secondOfDay < 86400 := by
  unfold secondOfDay
  omega

theorem seconds_eq : t.seconds = t.date.dayNumber * 86400 + t.secondOfDay := by
  simp only [date, secondOfDay]
  omega

-- A leap second is written as the second 60.
theorem leadingTime?_writtenTime : leadingTime? (t.writtenTime ++ 'Z' :: r) =
    some (t.secondOfDay, t.nanos, 'Z' :: r) := by
  have hday := t.secondOfDay_lt
  have hnanos := t.nanos_lt
  have hcolon : ∀ r, trimStart (':' :: r) = ':' :: r := fun r => trimStart_cons (by decide)
  simp only [leadingTime?, writtenTime, List.append_assoc, List.cons_append, Option.bind_eq_bind]
  rw [field?_padded (by omega)]
  simp only [Option.bind_some, hcolon, expect?_cons]
  rw [field?_padded (by omega)]
  simp only [Option.bind_some, hcolon, expect?_cons]
  rw [field?_padded (by omega)]
  simp only [Option.bind_some]
  rw [fraction?_writtenFraction (by omega) (by decide) (by decide)]
  have hleap : 1000000000 ≤ t.nanos → t.secondOfDay % 60 = 59 := fun h => by
    have hend := t.leap_ends_minute h
    unfold secondOfDay
    omega
  rw [Option.bind_some, if_pos (by omega)]
  refine congrArg some (Prod.ext ?_ (Prod.ext ?_ rfl))
  all_goals
    dsimp only
    split <;> omega

theorem ofParts?_eq : ofParts? (t.date.dayNumber * 86400 + t.secondOfDay) t.nanos = some t := by
  rw [← t.seconds_eq]
  exact dif_pos ⟨t.nanos_lt, t.leap_ends_minute⟩

theorem read?_toString (h : t.date.InRange) : read? (toString t) = some t := by
  have hoffset : offset? (trimStart ['Z']) = some (0, []) := by decide
  show read? (String.ofList t.written) = some t
  simp only [read?, String.toList_ofList, written, List.append_assoc, List.cons_append,
    leadingDate?_written h, Option.bind_eq_bind, Option.bind_some]
  rw [if_pos (.inl trivial), t.leadingTime?_writtenTime]
  simp only [Option.bind_some, hoffset, Int.sub_zero, t.ofParts?_eq, h, if_true]
  rfl

theorem inRange_of_read? {s : String} (h : read? s = some t) : t.date.InRange := by
  simp only [read?, Option.bind_eq_bind, Option.bind_eq_some_iff] at h
  obtain ⟨⟨_, rest⟩, -, h⟩ := h
  cases rest with
  | nil => cases h
  | cons =>
    dsimp only at h
    split at h
    case isFalse => cases h
    case isTrue =>
      simp only [Option.bind_some, Option.bind_eq_some_iff, Option.ite_none_right_eq_some] at h
      obtain ⟨_, -, _, -, -, u, -, hr, hu⟩ := h
      exact Option.some.inj hu ▸ hr

end Timestamp

end EntryDoor
