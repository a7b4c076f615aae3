import EntryDoor.Proofs.Schedule.Rules

namespace EntryDoor

theorem Date.eq_iff {a b : Date} : a = b ↔ a.dayNumber = b.dayNumber := by
  cases a
  cases b
  simp

namespace Zone

variable {z : Zone} {offset : Int} {d d' : Date}

def Constant (z : Zone) (offset : Int) : Prop :=
  ∀ t, z.offsetAt t = offset

theorem resolve_of_constant (h : z.Constant offset) (w : WallTime) : z.resolve w = w - offset := by
  have hm : ∀ t, t ∈ z.readings w ↔ t + offset = w := fun t => by rw [mem_readings, wallTime, h]
  unfold resolve
  split
  case h_1 t _ hr =>
    have := (hm t).mp (by simp [hr])
    omega
  case h_2 hr =>
    have := (hm (w - offset)).mpr (by omega)
    simp [hr] at this

theorem midnight_of_constant (h : z.Constant offset) :
    z.midnight d = .ofSeconds (d.dayNumber * 86400 - offset) := by
  rw [midnight, resolve_of_constant h]

theorem midnight_mono (h : z.Constant offset) (d d' : Date) (hd : d.dayNumber ≤ d'.dayNumber) :
    z.midnight d ≤ z.midnight d' := by
  rw [midnight_of_constant h, midnight_of_constant h, Timestamp.ofSeconds_le]
  simp only [Timestamp.ofSeconds]
  omega

theorem midnight_dateAt (h : z.Constant offset) (t : Timestamp) :
    z.midnight (z.dateAt t) ≤ t ∧ t < z.midnight (z.dateAt t).next := by
  rw [midnight_of_constant h, midnight_of_constant h, Timestamp.ofSeconds_le,
    Timestamp.lt_ofSeconds]
  simp only [dateAt, wallTime, h t.seconds, Date.next, Date.addDays]
  omega

theorem dateAt_mono (h : z.Constant offset) {t t' : Timestamp} (ht : t ≤ t') :
    (z.dateAt t).dayNumber ≤ (z.dateAt t').dayNumber := by
  have hs := Timestamp.ofSeconds_le.mp
    (Timestamp.le_trans (Timestamp.ofSeconds_le.mpr (Int.le_refl t.seconds)) ht)
  simp only [dateAt, wallTime, h t.seconds, h t'.seconds]
  omega

theorem dateAt_eq_of_lt_midnight (h : z.Constant offset) {t t' : Timestamp} (ht : t ≤ t')
    (hm : t' < z.midnight (z.dateAt t).next) : z.dateAt t' = z.dateAt t := by
  have hge := dateAt_mono h ht
  rw [midnight_of_constant h, Timestamp.lt_ofSeconds] at hm
  have hle : (z.dateAt t').dayNumber ≤ (z.dateAt t).dayNumber := by
    simp only [dateAt, wallTime, h t.seconds, h t'.seconds, Date.next, Date.addDays] at hm ⊢
    omega
  exact Date.eq_iff.mpr (Int.le_antisymm hle hge)

end Zone

namespace Timestamp

theorem ofSeconds_eq_ofNanos (n : Int) : ofSeconds n = ofNanos (n * 1000000000) := by
  apply eq_of_rank_eq
  simp only [rank, ofSeconds, ofNanos]
  omega

theorem ofNanos_lt_ofNanos {a b : Int} : ofNanos a < ofNanos b ↔ a < b := by
  rw [← not_le, ofNanos_le_ofNanos]
  omega

end Timestamp

namespace OpeningHour

variable {h h' : OpeningHour} {d : Date} {z : Zone} {offset : Int}

theorem on_start (hz : z.Constant offset) : (h.on d z).start = .ofNanos
    ((d.dayNumber * 86400 + h.range.start.minutes * 60 - offset) * 1000000000 -
      h.openBefore.nanos) := by
  have : (h.on d z).start =
      (Timestamp.ofSeconds (z.resolve (h.range.start.wallTime d))).shift (-h.openBefore.nanos) :=
    rfl
  rw [this, Timestamp.shift_ofSeconds, Zone.resolve_of_constant hz, DayTime.wallTime,
    ← Int.sub_eq_add_neg]

theorem on_stop (hz : z.Constant offset) : (h.on d z).stop = .ofNanos
    ((d.dayNumber * 86400 + h.range.stop.minutes * 60 - offset) * 1000000000 +
      h.closeAfter.nanos) := by
  have : (h.on d z).stop =
      (Timestamp.ofSeconds (z.resolve (h.range.stop.wallTime d))).shift h.closeAfter.nanos := rfl
  rw [this, Timestamp.shift_ofSeconds, Zone.resolve_of_constant hz, DayTime.wallTime]

-- Of two hours of which one has ended in full minutes before the other opens, it also starts before.
theorem on_start_lt (hz : z.Constant offset) (hh : h.closesAt < h'.opensAt) :
    (h.on d z).start < (h'.on d z).start := by
  have ho := h.opensAt_lt_closesAt
  rw [on_start hz, on_start hz, Timestamp.ofNanos_lt_ofNanos]
  simp only [opensAt, closesAt, Duration.minutes] at hh ho
  omega

theorem on_start_lt_stop (hz : z.Constant offset) : (h.on d z).start < (h.on d z).stop := by
  have hr := DayTime.lt_def.mp h.range.start_lt_stop
  rw [on_start hz, on_stop hz, Timestamp.ofNanos_lt_ofNanos]
  omega

-- The effective interval of a date, by the midnights around it.
structure Placed (z : Zone) (d : Date) (i : Interval) : Prop where
  start_ge : z.midnight d.previous ≤ i.start
  start_lt : i.start < z.midnight d.next
  start_lt_stop : i.start < i.stop
  stop_lt : i.stop < z.midnight d.next.next

theorem on_stop_lt (hz : z.Constant offset)
    (hc : h.range.stop.minutes * 60 * 1000000000 + h.closeAfter.nanos < 2 * 86400 * 1000000000) :
    (h.on d z).stop < z.midnight d.next.next := by
  rw [on_stop hz, Zone.midnight_of_constant hz, Timestamp.ofSeconds_eq_ofNanos,
    Timestamp.ofNanos_lt_ofNanos]
  simp only [Date.next, Date.addDays]
  omega

theorem placed_on (hz : z.Constant offset) (ho : h.openBefore ≤ .ofSeconds 86400)
    (hc : h.closeAfter ≤ .ofSeconds 86400) : Placed z d (h.on d z) := by
  have hs := h.range.start.minutes_lt
  have he := h.range.stop.minutes_lt
  simp only [Duration.le_def, Duration.ofSeconds] at ho hc
  refine ⟨?_, ?_, on_start_lt_stop hz, on_stop_lt hz (by omega)⟩ <;>
    simp only [on_start hz, Zone.midnight_of_constant hz, Timestamp.ofSeconds_eq_ofNanos,
      Timestamp.ofNanos_lt_ofNanos, Timestamp.ofNanos_le_ofNanos, Date.next, Date.previous,
      Date.addDays] <;>
    omega

end OpeningHour

end EntryDoor
