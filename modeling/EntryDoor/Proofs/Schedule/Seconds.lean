import EntryDoor.Proofs.Schedule.Promise

namespace EntryDoor

namespace Duration

-- What is left of a time beyond its full minutes, in nanoseconds.
def beyondMinutes (d : Duration) : Nat :=
  d.nanos % 60000000000

theorem nanos_eq (d : Duration) : d.nanos = d.minutes * 60000000000 + d.beyondMinutes :=
  (Nat.div_add_mod' d.nanos 60000000000).symm

theorem beyondMinutes_lt (d : Duration) : d.beyondMinutes < 60000000000 :=
  Nat.mod_lt _ (by decide)

theorem beyondMinutes_ofMinutes (n : Nat) : (ofMinutes n).beyondMinutes = 0 :=
  Nat.mul_mod_left n 60000000000

end Duration

theorem Timestamp.ofNanos_add (n : Int) (d : Duration) : ofNanos n + d = ofNanos (n + d.nanos) := by
  have h : (ofNanos n).nanos < 1000000000 := by
    simp only [ofNanos]
    omega
  show (ofNanos n).shift d.nanos = _
  rw [shift_of_nanos_lt h, nanosSinceEpoch_ofNanos]

namespace OpeningHour

variable {a b : OpeningHour} {d : Date} {z : Zone} {offset : Int}

-- What the check does not see fits between the two hours.
def SparesSeconds (a b : OpeningHour) : Prop :=
  a.closeAfter.beyondMinutes + b.openBefore.beyondMinutes < (b.opensAt - a.closesAt) * 60000000000

instance (a b : OpeningHour) : Decidable (a.SparesSeconds b) := by
  unfold SparesSeconds
  infer_instance

theorem on_stop_lt_on_start_iff (hz : z.Constant offset) :
    (a.on d z).stop < (b.on d z).start ↔ a.SparesSeconds b := by
  have hc := a.closeAfter.nanos_eq
  have ho := b.openBefore.nanos_eq
  rw [on_stop hz, on_start hz, Timestamp.ofNanos_lt_ofNanos, SparesSeconds, opensAt, closesAt]
  omega

-- Of two hours that pass the check, the first one ends less than a minute after the other one starts.
theorem on_stop_lt_on_start_add (hz : z.Constant offset) (h : a.closesAt < b.opensAt) :
    (a.on d z).stop < (b.on d z).start + Duration.ofMinutes 1 := by
  have hc := a.closeAfter.nanos_eq
  have ho := b.openBefore.nanos_eq
  have hc' := a.closeAfter.beyondMinutes_lt
  have ho' := b.openBefore.beyondMinutes_lt
  rw [on_stop hz, on_start hz, Timestamp.ofNanos_add, Timestamp.ofNanos_lt_ofNanos]
  simp only [opensAt, closesAt, Duration.ofMinutes] at h ⊢
  omega

end OpeningHour

namespace Schedule

variable {s : Schedule} {d : Date} {offset : Int}

-- The intervals of `d` are disjoint, each one ends before the next one starts.
def Apart (s : Schedule) (d : Date) : Prop :=
  (s.hoursOn d).Pairwise fun i j => i.stop < j.start

theorem apart_iff (hz : s.zone.Constant offset) :
    s.Apart d ↔ (s.layerFor d).2.Pairwise OpeningHour.SparesSeconds := by
  rw [Apart, hoursOn, List.pairwise_map]
  exact List.Pairwise.iff fun _ _ => OpeningHour.on_stop_lt_on_start_iff hz

-- If all thresholds are full minutes, nothing escapes the check.
theorem apart_of_fullMinutes (hz : s.zone.Constant offset) (ha : s.rules.Apart)
    (hm : ∀ h ∈ (s.layerFor d).2,
      h.openBefore.beyondMinutes = 0 ∧ h.closeAfter.beyondMinutes = 0) : s.Apart d := by
  refine (apart_iff hz).mpr ((apart_layerFor ha).imp_of_mem fun {a b} hma hmb hlt => ?_)
  simp only [OpeningHour.SparesSeconds, (hm a hma).2, (hm b hmb).1]
  omega

-- The intervals of a day start in order, and none ends a minute after the next one starts. They are
-- disjoint exactly if no two hours need the seconds between them twice.
theorem hoursOn_apart_iff {b : RuleSetBuilder} (hb : b.build = .ok s.rules)
    (hz : s.zone.Constant offset) :
    ((s.hoursOn d).Pairwise fun i j : Interval =>
      i.start < j.start ∧ i.stop < j.start + Duration.ofMinutes 1) ∧
    (s.Apart d ↔ (s.layerFor d).2.Pairwise OpeningHour.SparesSeconds) := by
  have ha : (s.layerFor d).2.Pairwise fun a b => a.closesAt < b.opensAt :=
    apart_layerFor (RuleSet.apart_of_build hb)
  refine ⟨List.pairwise_map.mpr (ha.imp fun hlt => ?_), apart_iff hz⟩
  exact ⟨OpeningHour.on_start_lt hz hlt, OpeningHour.on_stop_lt_on_start_add hz hlt⟩

def longAfternoon : OpeningHour where
  range := ⟨⟨15, 40, by decide, by decide⟩, ⟨19, 40, by decide, by decide⟩, by decide⟩
  closeAfter := .ofSeconds 59

def evening (lead : Nat) : OpeningHour where
  range := ⟨⟨19, 41, by decide, by decide⟩, ⟨21, 40, by decide, by decide⟩, by decide⟩
  openBefore := .ofSeconds lead

def tightMondaysBuilder (lead : Nat) : RuleSetBuilder :=
  (RuleSetBuilder.empty.addRegular .monday longAfternoon).addRegular .monday (evening lead)

-- Mondays have an hour that lasts until 59 seconds past 19:40, and one from 19:41 on, or from some seconds
-- earlier.
def tightMondays (lead : Nat) : Schedule where
  rules := { RuleSet.empty with
    regular := fun
      | .monday => [longAfternoon, evening lead]
      | _ => [] }
  zone := ⟨"UTC", 0, []⟩
  country := ""
  holidays := .none

theorem tightMondays_constant (lead : Nat) : (tightMondays lead).zone.Constant 0 :=
  fun _ => rfl

-- The check takes no lead of less than a minute into account.
theorem build_tightMondays {lead : Nat} (h : lead < 60) :
    (tightMondaysBuilder lead).build = .ok (tightMondays lead).rules := by
  have hlt : longAfternoon.closesAt < (evening lead).opensAt := by
    simp only [OpeningHour.closesAt, OpeningHour.opensAt, longAfternoon, evening, DayTime.minutes,
      Duration.minutes, Duration.ofSeconds]
    omega
  have hsorted : RuleSetBuilder.sorted [longAfternoon, evening lead] =
      [longAfternoon, evening lead] :=
    List.mergeSort_of_pairwise (by simp [longAfternoon, evening, DayTime.le_def, DayTime.minutes])
  refine RuleSetBuilder.build_eq_ok_iff.mpr ⟨⟨fun w => ?regular, fun _ _ h => ?dated, .nil⟩, ?sorted⟩
  case regular =>
    cases w <;> simp [tightMondaysBuilder, RuleSetBuilder.addRegular, RuleSetBuilder.empty,
      OpeningHour.not_overlaps_iff, hlt]
  case dated => cases h
  case sorted =>
    simp only [RuleSetBuilder.sortedRules, tightMondays, RuleSet.mk.injEq]
    refine ⟨funext fun w => ?_, rfl, List.mergeSort_nil⟩
    cases w <;> simp [tightMondaysBuilder, RuleSetBuilder.addRegular, RuleSetBuilder.empty, hsorted]
    all_goals exact List.mergeSort_nil

-- One second lies between the two hours.
theorem apart_tightMondays : (tightMondaysBuilder 0).build = .ok (tightMondays 0).rules ∧
    (tightMondays 0).Apart ⟨19730⟩ := by
  have hb : (tightMondaysBuilder 0).build = .ok (tightMondays 0).rules :=
    build_tightMondays (by decide)
  exact ⟨hb, (hoursOn_apart_iff hb (tightMondays_constant 0)).2.mpr (by decide)⟩

-- With a lead of 59 seconds the door unlocks for the second hour before the first one has ended.
theorem not_apart_tightMondays : (tightMondaysBuilder 59).build = .ok (tightMondays 59).rules ∧
    ¬(tightMondays 59).Apart ⟨19730⟩ :=
  ⟨build_tightMondays (by decide), by unfold Apart; decide⟩

end Schedule

end EntryDoor
