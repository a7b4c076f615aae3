import EntryDoor.Proofs.Schedule.Overlap
import EntryDoor.Proofs.Schedule.Window

namespace EntryDoor

-- No interval lasts until the second midnight after its date.
def RuleSet.EndsInTime (r : RuleSet) : Prop :=
  ∀ h, r.Mentions h →
    h.range.stop.minutes * 60 * 1000000000 + h.closeAfter.nanos < 2 * 86400 * 1000000000

theorem RuleSet.WithinDay.endsInTime {r : RuleSet} (hw : r.WithinDay) : r.EndsInTime := by
  intro h hm
  have hc := Duration.le_def.mp (hw h hm).2
  have hs := h.range.stop.minutes_lt
  simp only [Duration.ofSeconds] at hc
  omega

namespace Schedule

variable {s : Schedule} {d : Date} {i j : Interval} {t t' u : Timestamp} {offset : Int}

theorem state_eq_unlocked_iff :
    (s.stateAt t).state = .unlocked ↔ ∃ d ∈ s.window t, ∃ i ∈ s.hoursOn d, i.Covers t := by
  unfold stateAt
  split
  case h_1 hnil =>
    refine ⟨nofun, fun ⟨d, hd, i, hi, hc⟩ => ?_⟩
    have hmem := mem_openHoursOn.mpr ⟨hi, hc.2⟩
    rw [openHoursOn_of_intervalsFrom_nil hnil hd] at hmem
    cases hmem
  case h_2 i rest hcons =>
    have ⟨d, hd, hi, hf⟩ := intervalsFrom_first hcons
    have ⟨hi, hstop⟩ := mem_openHoursOn.mp hi
    split
    case isTrue hc => exact ⟨fun _ => ⟨d, hd, i, hi, hc⟩, fun _ => rfl⟩
    case isFalse hc =>
      -- What covers `t` would have been found first.
      have hn : ¬∃ d ∈ s.window t, ∃ i ∈ s.hoursOn d, i.Covers t := by
        rintro ⟨d', hd', j, hj, hcj⟩
        have hle := (hf d' hd' j (mem_openHoursOn.mpr ⟨hj, hcj.2⟩)).start_le
        exact hc ⟨Timestamp.le_trans hle hcj.1, hstop⟩
      refine ⟨fun h => ?_, fun h => absurd h hn⟩
      split at h <;> cases h

theorem stateAt_eq_unlocked (h : s.stateAt t = ⟨.unlocked, some u⟩) :
    ∃ d ∈ s.window t, ∃ i ∈ s.hoursOn d, i.Covers t ∧ i.stop = u := by
  unfold stateAt at h
  split at h
  case h_1 => cases h
  case h_2 i rest hcons =>
    have ⟨d, hd, hi, _⟩ := intervalsFrom_first hcons
    split at h
    case isTrue hc =>
      cases h
      exact ⟨d, hd, i, (mem_openHoursOn.mp hi).1, hc, rfl⟩
    case isFalse => split at h <;> cases h

-- Until then is before the end of the day, and nothing that is looked at starts before.
theorem stateAt_eq_locked (h : s.stateAt t = ⟨.locked, some u⟩) :
    (∃ d ∈ s.window t, ∃ i ∈ s.hoursOn d, i.start = u) ∧ t < u ∧ u < s.endOfDay t ∧
      ∀ d ∈ s.window t, ∀ j ∈ s.hoursOn d, t ≤ j.stop → u ≤ j.start := by
  unfold stateAt at h
  split at h
  case h_1 => cases h
  case h_2 i rest hcons =>
    have ⟨d, hd, hi, hf⟩ := intervalsFrom_first hcons
    have ⟨hi, hstop⟩ := mem_openHoursOn.mp hi
    split at h
    case isTrue => cases h
    case isFalse hc =>
      split at h
      case isTrue => cases h
      case isFalse he =>
        cases h
        refine ⟨⟨d, hd, i, hi, rfl⟩, Timestamp.not_le.mp fun hs => hc ⟨hs, hstop⟩,
          Timestamp.not_le.mp he, fun d' hd' j hj htj => ?_⟩
        exact (hf d' hd' j (mem_openHoursOn.mpr ⟨hj, htj⟩)).start_le

section

variable (hz : s.zone.Constant offset)
include hz

theorem start_lt_stop (hi : i ∈ s.hoursOn d) : i.start < i.stop := by
  obtain ⟨h, -, rfl⟩ := List.mem_map.mp hi
  exact OpeningHour.on_start_lt_stop hz

theorem dateAt_eq (ht : t ≤ t') (hm : t' < s.endOfDay t) : s.zone.dateAt t' = s.zone.dateAt t :=
  Zone.dateAt_eq_of_lt_midnight hz ht hm

omit hz in
theorem openHoursOn_eq_nil_of_le (hn : s.openHoursOn t d = []) (ht : t ≤ t') :
    s.openHoursOn t' d = [] := by
  refine List.eq_nil_iff_forall_not_mem.mpr fun i hi => ?_
  have ⟨hi, hs⟩ := mem_openHoursOn.mp hi
  have hmem := mem_openHoursOn.mpr ⟨hi, Timestamp.le_trans ht hs⟩
  rw [hn] at hmem
  cases hmem

-- A date that is looked at is so until the second midnight after it.
theorem mem_window_of_le (hd : d ∈ s.window t) (ht : t ≤ t')
    (hn : (s.zone.dateAt t').dayNumber ≤ d.dayNumber + 1) : d ∈ s.window t' := by
  have hmono := Zone.dateAt_mono hz ht
  refine mem_window.mpr ⟨hn, ?_⟩
  rcases (mem_window.mp hd).2 with hle | ⟨hnil, hle⟩
  case inl => exact .inl (Int.le_trans hle hmono)
  case inr =>
    by_cases hsame : d.dayNumber ≤ (s.zone.dateAt t').dayNumber
    case pos => exact .inl hsame
    -- It is tomorrow still.
    case neg =>
      have heq : s.zone.dateAt t' = s.zone.dateAt t := Date.eq_iff.mpr (by omega)
      rw [heq]
      exact .inr ⟨openHoursOn_eq_nil_of_le hnil ht, hle⟩

section

variable (h : s.stateAt t = ⟨.locked, some u⟩)
include h

-- Nothing more is looked at as long as nothing has started.
theorem window_subset (ht : t ≤ t') (hu : t' < u) (hd : d ∈ s.window t') : d ∈ s.window t := by
  have ⟨_, _, hend, hfirst⟩ := stateAt_eq_locked h
  have ⟨hge, hle⟩ := mem_window.mp hd
  rw [dateAt_eq hz ht (Int.lt_trans hu hend)] at hge hle
  refine mem_window.mpr ⟨hge, hle.imp_right fun ⟨hnil, hle⟩ => ⟨?_, hle⟩⟩
  -- What is left of yesterday at `t` has not started, so it is not over.
  refine List.eq_nil_iff_forall_not_mem.mpr fun k hk => ?_
  have ⟨hk, hs⟩ := mem_openHoursOn.mp hk
  have hstart := hfirst _ yesterday_mem_window k hk hs
  have hstop := start_lt_stop hz hk
  have hmem : k ∈ s.openHoursOn t' (s.zone.dateAt t).previous := mem_openHoursOn.mpr ⟨hk, by
    simp only [Timestamp.le_def, Timestamp.lt_def] at *
    omega⟩
  rw [hnil] at hmem
  cases hmem

theorem state_eq_locked_of_lt (ht : t ≤ t') (hu : t' < u) : (s.stateAt t').state = .locked := by
  have hn : (s.stateAt t').state ≠ .unlocked := by
    intro hun
    have ⟨d, hd, j, hj, hc⟩ := state_eq_unlocked_iff.mp hun
    have hle := (stateAt_eq_locked h).2.2.2 d (window_subset hz h ht hu hd) j hj
      (Timestamp.le_trans ht hc.2)
    exact Timestamp.not_le.mpr hu (Timestamp.le_trans hle hc.1)
  cases hs : (s.stateAt t').state with
  | locked => rfl
  | unlocked => exact absurd hs hn

theorem state_eq_unlocked_at_end : (s.stateAt u).state = .unlocked := by
  have ⟨⟨d, hd, i, hi, hstart⟩, htu, hend, _⟩ := stateAt_eq_locked h
  have htu := Timestamp.le_of_lt htu
  have hn : (s.zone.dateAt u).dayNumber ≤ d.dayNumber + 1 := by
    rw [dateAt_eq hz htu hend]
    exact (mem_window.mp hd).1
  refine state_eq_unlocked_iff.mpr ⟨d, mem_window_of_le hz hd htu hn, i, hi, ?_⟩
  exact hstart ▸ ⟨Int.le_refl _, Timestamp.le_of_lt (start_lt_stop hz hi)⟩

end

end

-- A state that is given together with its end lasts until then. The end belongs to it if the door is
-- unlocked.
structure Kept (s : Schedule) (t : Timestamp) : Prop where
  unlocked : ∀ u, s.stateAt t = ⟨.unlocked, some u⟩ →
    t ≤ u ∧ ∀ t', t ≤ t' → t' ≤ u → (s.stateAt t').state = .unlocked
  locked : ∀ u, s.stateAt t = ⟨.locked, some u⟩ →
    t < u ∧ (∀ t', t ≤ t' → t' < u → (s.stateAt t').state = .locked) ∧
      (s.stateAt u).state = .unlocked

-- Whenever the interval that unlocks the door at `t` lasts beyond the second midnight after its date,
-- others cover the rest of it, of dates that are looked at by then.
def Relieved (s : Schedule) (t : Timestamp) : Prop :=
  ∀ d ∈ s.window t, ∀ i ∈ s.hoursOn d, i.Covers t → s.stateAt t = ⟨.unlocked, some i.stop⟩ →
    ∀ t' ≤ i.stop, d.dayNumber + 1 < (s.zone.dateAt t').dayNumber →
      ∃ d' ∈ s.window t', ∃ j ∈ s.hoursOn d', j.Covers t'

-- An interval is looked at until the second midnight after its date, and the door that it unlocks is known to
-- stay unlocked no longer.
theorem kept_iff (hz : s.zone.Constant offset) : s.Kept t ↔ s.Relieved t := by
  constructor
  case mp =>
    intro h d hd i hi hc hs t' ht' hlater
    have hday := (mem_window.mp hd).1
    have ht : t ≤ t' := (Timestamp.le_total t t').resolve_right fun hle => by
      have hmono := Zone.dateAt_mono hz hle
      omega
    exact state_eq_unlocked_iff.mp ((h.unlocked _ hs).2 t' ht ht')
  case mpr =>
    intro h
    refine ⟨fun u hs => ?unlocked, fun u hs => ?locked⟩
    case unlocked =>
      obtain ⟨d, hd, i, hi, hc, rfl⟩ := stateAt_eq_unlocked hs
      refine ⟨hc.2, fun t' ht ht' => state_eq_unlocked_iff.mpr ?_⟩
      by_cases hn : (s.zone.dateAt t').dayNumber ≤ d.dayNumber + 1
      case pos => exact ⟨d, mem_window_of_le hz hd ht hn, i, hi, Timestamp.le_trans hc.1 ht, ht'⟩
      case neg => exact h d hd i hi hc hs t' ht' (by omega)
    case locked =>
      exact ⟨(stateAt_eq_locked hs).2.1, fun t' => state_eq_locked_of_lt hz hs,
        state_eq_unlocked_at_end hz hs⟩

theorem stop_lt_midnight (hz : s.zone.Constant offset) (he : s.rules.EndsInTime)
    (hi : i ∈ s.hoursOn d) : i.stop < s.zone.midnight d.next.next := by
  obtain ⟨h, hm, rfl⟩ := List.mem_map.mp hi
  exact OpeningHour.on_stop_lt hz (he h (mentions_of_mem_layerFor hm))

-- Nothing has to be relieved if no interval lasts that long.
theorem relieved_of_endsInTime (hz : s.zone.Constant offset) (he : s.rules.EndsInTime) :
    s.Relieved t := by
  intro d _ i hi _ _ t' ht' hlater
  have hstop := stop_lt_midnight hz he hi
  have hm := Zone.midnight_mono hz d.next.next (s.zone.dateAt t')
    (by simp only [Date.next, Date.addDays]; omega)
  have hle := Timestamp.le_trans hm (Zone.midnight_dateAt hz t').1
  exact absurd (Timestamp.le_trans hle ht') (Timestamp.not_le.mpr hstop)

-- Late on a Monday, the end at one o'clock on Tuesday is kept.
theorem kept_lateMondays : lateMondays.Kept (.ofSeconds (4 * 86400 + 82800)) :=
  (kept_iff lateMondays_constant).mpr
    (relieved_of_endsInTime lateMondays_constant withinDay_lateMondays.endsInTime)

def longHour : OpeningHour where
  range := ⟨⟨8, 5, by decide, by decide⟩, ⟨12, 5, by decide, by decide⟩, by decide⟩
  closeAfter := .ofSeconds 259200

-- Mondays have an hour after which the door stays open until after noon on Thursday.
def longMondays : Schedule where
  rules := { RuleSet.empty with
    regular := fun
      | .monday => [longHour]
      | _ => [] }
  zone := ⟨"UTC", 0, []⟩
  country := ""
  holidays := .none

theorem build_longMondays : (RuleSetBuilder.empty.addRegular .monday longHour).build =
    .ok longMondays.rules := by
  refine RuleSetBuilder.build_eq_ok_iff.mpr ⟨⟨fun w => ?regular, fun _ _ => nofun, .nil⟩, ?sorted⟩
  case regular => cases w <;> simp [RuleSetBuilder.addRegular, RuleSetBuilder.empty]
  case sorted =>
    simp only [RuleSetBuilder.sortedRules, longMondays, RuleSet.mk.injEq]
    refine ⟨funext fun w => ?_, rfl, List.mergeSort_nil⟩
    cases w <;> simp [RuleSetBuilder.addRegular, RuleSetBuilder.empty, RuleSetBuilder.sorted]

theorem stateAt_longMondays : longMondays.stateAt (.ofSeconds (19730 * 86400 + 32400)) =
    ⟨.unlocked, some (.ofSeconds (19733 * 86400 + 43500))⟩ := by
  have hg : longMondays.gather (.ofSeconds (19730 * 86400 + 32400)) 1 3
      (longMondays.zone.dateAt (.ofSeconds (19730 * 86400 + 32400))).previous 1 [] =
      [longHour.on ⟨19730⟩ longMondays.zone] := by
    decide +kernel
  have he : longMondays.rules.isEmpty = false := by decide
  rw [stateAt, intervalsFrom, hg, he, byStart, List.mergeSort_singleton]
  decide

-- The Monday is not looked at any more.
theorem state_longMondays :
    (longMondays.stateAt (.ofSeconds (19732 * 86400 + 46800))).state = .locked := by
  have hg : longMondays.gather (.ofSeconds (19732 * 86400 + 46800)) 1 3
      (longMondays.zone.dateAt (.ofSeconds (19732 * 86400 + 46800))).previous 1 [] = [] := by
    decide +kernel
  have he : longMondays.rules.isEmpty = false := by decide
  rw [stateAt, intervalsFrom, hg, he, byStart, List.mergeSort_nil]
  decide

-- At nine on a Monday the door is unlocked until Thursday, and at one on Wednesday it is not.
theorem not_kept_longMondays :
    (RuleSetBuilder.empty.addRegular .monday longHour).build = .ok longMondays.rules ∧
      ¬longMondays.Kept (.ofSeconds (19730 * 86400 + 32400)) := by
  refine ⟨build_longMondays, fun h => ?_⟩
  have hun := (h.unlocked _ stateAt_longMondays).2 (.ofSeconds (19732 * 86400 + 46800))
    (by decide) (by decide)
  rw [state_longMondays] at hun
  cases hun

end Schedule

end EntryDoor
