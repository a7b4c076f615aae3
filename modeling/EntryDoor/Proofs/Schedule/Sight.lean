import EntryDoor.Proofs.Schedule.Promise

namespace EntryDoor

namespace Schedule

variable {s : Schedule} {t : Timestamp} {d : Date} {i : Interval}

-- The intervals that count at `t`: those of yesterday and of today, and those of tomorrow as soon as
-- all of yesterday's have ended.
inductive Counts (s : Schedule) (t : Timestamp) (i : Interval) : Prop
  | yesterday (hi : i ∈ s.hoursOn (s.zone.dateAt t).previous)
  | today (hi : i ∈ s.hoursOn (s.zone.dateAt t))
  | tomorrow (hi : i ∈ s.hoursOn (s.zone.dateAt t).next)
      (hn : ∀ j ∈ s.hoursOn (s.zone.dateAt t).previous, j.stop < t)

theorem openHoursOn_eq_nil_iff : s.openHoursOn t d = [] ↔ ∀ j ∈ s.hoursOn d, j.stop < t := by
  simp [openHoursOn, List.filter_eq_nil_iff]

theorem exists_mem_window_iff : (∃ d ∈ s.window t, i ∈ s.hoursOn d) ↔ s.Counts t i := by
  have htoday : (s.zone.dateAt t).previous.next = s.zone.dateAt t := Date.eq_iff.mpr (by
    simp only [Date.next, Date.previous, Date.addDays]
    omega)
  simp only [window, htoday]
  split
  case isTrue hnil =>
    have hn := openHoursOn_eq_nil_iff.mp hnil
    simp only [List.mem_cons, List.not_mem_nil, or_false, exists_eq_or_imp, exists_eq_left]
    constructor
    case mp =>
      rintro (hi | hi | hi)
      · exact .yesterday hi
      · exact .today hi
      · exact .tomorrow hi hn
    case mpr =>
      intro h
      cases h with
      | yesterday hi => exact .inl hi
      | today hi => exact .inr (.inl hi)
      | tomorrow hi _ => exact .inr (.inr hi)
  case isFalse hnil =>
    simp only [List.mem_cons, List.not_mem_nil, or_false, exists_eq_or_imp, exists_eq_left]
    constructor
    case mp =>
      rintro (hi | hi)
      · exact .yesterday hi
      · exact .today hi
    case mpr =>
      intro h
      cases h with
      | yesterday hi => exact .inl hi
      | today hi => exact .inr hi
      | tomorrow _ hn => exact absurd (openHoursOn_eq_nil_iff.mpr hn) hnil

theorem exists_covers_iff :
    (s.stateAt t).state = .unlocked ↔ ∃ i, s.Counts t i ∧ i.Covers t := by
  rw [state_eq_unlocked_iff]
  simp only [← exists_mem_window_iff]
  exact ⟨fun ⟨d, hd, i, hi, hc⟩ => ⟨i, ⟨d, hd, hi⟩, hc⟩,
    fun ⟨i, ⟨d, hd, hi⟩, hc⟩ => ⟨d, hd, i, hi, hc⟩⟩

theorem stateAt_of_unlocked (h : (s.stateAt t).state = .unlocked) :
    ∃ u, s.stateAt t = ⟨.unlocked, some u⟩ := by
  unfold stateAt at h ⊢
  split at h
  case h_1 => cases h
  case h_2 i _ hcons =>
    split at h
    case isTrue hc => exact ⟨i.stop, by simp [hc]⟩
    case isFalse => split at h <;> cases h

def daysAround (s : Schedule) (t : Timestamp) : List Date :=
  [(s.zone.dateAt t).previous, s.zone.dateAt t, (s.zone.dateAt t).next]

theorem Counts.exists_day (h : s.Counts t i) : ∃ d ∈ s.daysAround t, i ∈ s.hoursOn d := by
  cases h with
  | yesterday hi => exact ⟨_, by simp [daysAround], hi⟩
  | today hi => exact ⟨_, by simp [daysAround], hi⟩
  | tomorrow hi _ => exact ⟨_, by simp [daysAround], hi⟩

-- The door is open exactly if an interval that counts covers the instant, and the end that is given
-- with a state is one of an interval around.
structure Truthful (s : Schedule) (t : Timestamp) : Prop where
  unlocked_iff : (s.stateAt t).state = .unlocked ↔ ∃ i, s.Counts t i ∧ i.Covers t
  open_iff : s.isOpenAt t ↔ ∃ i, s.Counts t i ∧ i.Covers t
  unlocked : (s.stateAt t).state = .unlocked →
    ∃ i, s.Counts t i ∧ i.Covers t ∧ t ≤ i.stop ∧ (s.stateAt t).validUntil = some i.stop
  locked : ∀ u, s.stateAt t = ⟨.locked, some u⟩ →
    t < u ∧ u < s.endOfDay t ∧ ∃ d ∈ s.daysAround t, ∃ i ∈ s.hoursOn d, i.start = u

-- A change of the clocks may turn an interval around, or put intervals into another order than the configured
-- one. None of them hides one that covers `t`.
theorem truthful_stateAt (s : Schedule) (t : Timestamp) : s.Truthful t where
  unlocked_iff := exists_covers_iff
  open_iff := by rw [isOpenAt, beq_iff_eq, exists_covers_iff]
  unlocked h := by
    have ⟨u, hu⟩ := stateAt_of_unlocked h
    have ⟨d, hd, i, hi, hc, hstop⟩ := stateAt_eq_unlocked hu
    exact ⟨i, exists_mem_window_iff.mp ⟨d, hd, hi⟩, hc, hc.2, by rw [hu, hstop]⟩
  locked u h := by
    have ⟨⟨d, hd, i, hi, hstart⟩, htu, hend, _⟩ := stateAt_eq_locked h
    have ⟨d', hd', hi'⟩ := (exists_mem_window_iff.mp ⟨d, hd, hi⟩).exists_day
    exact ⟨htu, hend, d', hd', i, hi', hstart⟩

-- Where the clocks skip the time from one o'clock to three, an hour in it is turned around.
example : ({ range := ⟨⟨1, 30, by decide, by decide⟩, ⟨2, 5, by decide, by decide⟩, by decide⟩ } :
    OpeningHour).on ⟨0⟩ ⟨"", 0, [(3600, 7200)]⟩ = ⟨.ofSeconds 5400, .ofSeconds 3900⟩ := by
  decide

end Schedule

end EntryDoor
