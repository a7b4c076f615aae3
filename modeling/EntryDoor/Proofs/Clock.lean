import EntryDoor.Calendar.Timestamp

namespace EntryDoor

namespace Timestamp

variable {t u e : Timestamp} {n : Int}

-- A clock goes through what is left of the leap second at which it starts, and through no other one.
inductive Shifted (t : Timestamp) (n : Int) : Timestamp → Prop
  | within {u : Timestamp} (ht : 1000000000 ≤ t.nanos) (hu : 1000000000 ≤ u.nanos)
      (hs : u.seconds = t.seconds) (hn : u.nanos = t.nanos + n) : Shifted t n u
  | beyond (ht : 1000000000 ≤ t.nanos) (hn : 2000000000 ≤ t.nanos + n) :
      Shifted t n (ofNanos (t.nanosSinceEpoch + n - 1000000000))
  | plain (h : t.nanos < 1000000000 ∨ t.nanos + n < 1000000000) :
      Shifted t n (ofNanos (t.nanosSinceEpoch + n))

theorem shifted : Shifted t n (t.shift n) := by
  unfold shift
  split
  case isTrue h =>
    split
    case isTrue => exact .within h.1 (by dsimp only; omega) rfl (by dsimp only; omega)
    case isFalse => exact .beyond h.1 (by omega)
  case isFalse => exact .plain (by omega)

theorem shift_zero : t.shift 0 = t := by
  have h := @shifted t 0
  generalize t.shift 0 = u at h
  have := t.nanos_lt
  apply eq_of_rank_eq
  cases h <;> simp only [rank, ofNanos, nanosSinceEpoch] <;> omega

theorem shift_neg_lt (hn : 0 < n) : t.shift (-n) < t := by
  have h := @shifted t (-n)
  generalize t.shift (-n) = u at h
  have := t.nanos_lt
  cases h <;> simp only [lt_def, rank, ofNanos, nanosSinceEpoch] <;> omega

theorem shift_shift_neg_le (hn : 0 ≤ n) : (t.shift n).shift (-n) ≤ t := by
  have h := @shifted t n
  generalize t.shift n = u at h
  have h' := @shifted u (-n)
  generalize u.shift (-n) = v at h'
  have := t.nanos_lt
  cases h <;> cases h' <;> simp only [le_def, rank, ofNanos, nanosSinceEpoch] at * <;> omega

theorem leapBetween_le : e.leapBetween t ≤ 0 ∨
    1000000000 ≤ t.nanos ∧ e.seconds ≠ t.seconds ∧ e.leapBetween t = 1 := by
  unfold leapBetween secondOfDay
  split
  case isTrue =>
    split
    case isTrue h => exact .inr ⟨h, by omega, rfl⟩
    case isFalse => exact .inl (Int.le_refl _)
  case isFalse =>
    split
    case isTrue => split <;> exact .inl (by decide)
    case isFalse => exact .inl (Int.le_refl _)

-- A clock that goes on for no longer than the time to `e` has not passed `e` then.
theorem shift_le_of_le_since (hn : 0 < n) (h : n ≤ (e.since t).nanos) (he : e.nanos < 1000000000) :
    t.shift n ≤ e := by
  have hs := @shifted t n
  generalize t.shift n = u at hs
  have hl := @leapBetween_le t e
  have := u.nanos_lt
  simp only [since, nanosSinceEpoch] at h
  generalize e.leapBetween t = leap at *
  cases hs <;> simp only [le_def, rank, ofNanos, nanosSinceEpoch] at * <;> omega

-- If `e` is a leap second, it has by no more than a second.
theorem shift_sub_second_lt (hn : 0 < n) (h : n ≤ (e.since t).nanos) :
    (t.shift n).shift (-1000000000) < e := by
  have hs := @shifted t n
  generalize t.shift n = u at hs
  have hs' := @shifted u (-1000000000)
  generalize u.shift (-1000000000) = v at hs'
  have hl := @leapBetween_le t e
  have := e.nanos_lt
  -- Two leap seconds are never next to each other.
  have := t.leap_ends_minute
  have := e.leap_ends_minute
  simp only [since, nanosSinceEpoch] at h
  generalize e.leapBetween t = leap at *
  cases hs <;> cases hs' <;> simp only [lt_def, rank, ofNanos, nanosSinceEpoch] at * <;> omega

end Timestamp

end EntryDoor
