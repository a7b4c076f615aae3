import EntryDoor.Proofs.Config.Entries
import Mathlib.Data.List.Pairwise

namespace EntryDoor

-- The names that are read denote weekdays, and no two hours that are contributed to a recurring day or to
-- a weekday overlap. On holidays this is asked of different hours only: those that several entries
-- contribute count once.
structure Consistent (entries : List HoursEntry) : Prop where
  named : ∀ e ∈ entries, e.Readable
  dated : ∀ d, (entries.flatMap (·.datedHours d)).Pairwise fun a b => ¬a.Overlaps b
  regular : ∀ w, (entries.flatMap (·.weeklyHours w)).Pairwise fun a b => ¬a.Overlaps b
  holiday : ∀ a ∈ entries.flatMap (·.festiveHours), ∀ b ∈ entries.flatMap (·.festiveHours),
    a ≠ b → ¬a.Overlaps b

-- The entries have the same weekdays, dates and ranges, each in some order, and agree otherwise.
structure HoursEntry.Shuffled (e e' : HoursEntry) : Prop where
  weekdays : e.weekdays.Perm e'.weekdays
  dates : e.dates.Perm e'.dates
  timeRanges : e.timeRanges.Perm e'.timeRanges
  openBefore : e.openBeforeMinutes = e'.openBeforeMinutes
  closeAfter : e.closeAfterMinutes = e'.closeAfterMinutes
  holiday : e.holiday = e'.holiday

-- The same entries in some order, each of them shuffled.
def Reordered (entries entries' : List HoursEntry) : Prop :=
  ∃ mid, entries.Perm mid ∧ List.Forall₂ HoursEntry.Shuffled mid entries'

instance (e : HoursEntry) : Decidable e.Readable :=
  decidable_of_iff
    (e.IsWeekly → ∀ name ∈ e.weekdays, ∃ w ∈ Weekday.all, w.IsNamed name.toList)
    (by simp only [HoursEntry.Readable, Weekday.read_eq_ok_iff, Weekday.mem_all, true_and])

instance (entries : List HoursEntry) : Decidable (Consistent entries) :=
  decidable_of_iff
    ((∀ e ∈ entries, e.Readable) ∧
      (∀ d ∈ MonthDay.all,
        (entries.flatMap (·.datedHours d)).Pairwise fun a b => ¬a.Overlaps b) ∧
      (∀ w ∈ Weekday.all,
        (entries.flatMap (·.weeklyHours w)).Pairwise fun a b => ¬a.Overlaps b) ∧
      ∀ a ∈ entries.flatMap (·.festiveHours), ∀ b ∈ entries.flatMap (·.festiveHours),
        a ≠ b → ¬a.Overlaps b)
    ⟨fun ⟨hn, hd, hr, hh⟩ => ⟨hn, fun d => hd d d.mem_all, fun w => hr w w.mem_all, hh⟩,
      fun ⟨hn, hd, hr, hh⟩ => ⟨hn, fun d _ => hd d, fun w _ => hr w, hh⟩⟩

section

variable {entries : List HoursEntry}

instance : Std.Symm fun a b : OpeningHour => ¬a.Overlaps b :=
  ⟨fun _ _ => OpeningHour.not_overlaps_symm⟩

theorem RuleSetBuilder.disjoint_ofEntries_iff : (ofEntries entries).Disjoint ↔
    (∀ d, (entries.flatMap (·.datedHours d)).Pairwise fun a b => ¬a.Overlaps b) ∧
    (∀ w, (entries.flatMap (·.weeklyHours w)).Pairwise fun a b => ¬a.Overlaps b) ∧
    ∀ a ∈ entries.flatMap (·.festiveHours), ∀ b ∈ entries.flatMap (·.festiveHours),
      a ≠ b → ¬a.Overlaps b := by
  constructor
  case mp =>
    intro h
    refine ⟨fun d => ?dated, fun w => ofEntries_regular ▸ h.regular w, fun a ha b hb => ?holiday⟩
    case dated =>
      by_cases hd : ∃ e ∈ entries, d ∈ e.dates
      case pos => exact h.dated d _ (by rw [ofEntries_dated, if_pos hd])
      case neg => exact flatMap_datedHours_eq_nil hd ▸ .nil
    case holiday =>
      exact h.holiday.forall (mem_ofEntries_holiday.mpr ha) (mem_ofEntries_holiday.mpr hb)
  case mpr =>
    rintro ⟨hd, hr, hh⟩
    constructor
    case regular => exact fun w => ofEntries_regular ▸ hr w
    case dated =>
      intro d hours hs
      rw [ofEntries_dated] at hs
      split at hs <;> cases hs
      exact hd d
    case holiday =>
      exact nodup_ofEntries_holiday.pairwise_of_forall_ne fun a ha b hb =>
        hh a (mem_ofEntries_holiday.mp ha) b (mem_ofEntries_holiday.mp hb)

theorem Config.ruleSet_isOk_iff {c : Config} :
    (∃ rules, c.ruleSet = .ok rules) ↔ Consistent c.openingHours := by
  simp only [Config.ruleSet_eq_ok_iff, RuleSetBuilder.build_eq_ok_iff, exists_and_left,
    exists_eq', and_true, RuleSetBuilder.disjoint_ofEntries_iff]
  exact ⟨fun ⟨hn, hd, hr, hh⟩ => ⟨hn, hd, hr, hh⟩, fun ⟨hn, hd, hr, hh⟩ => ⟨hn, hd, hr, hh⟩⟩

end

namespace HoursEntry.Shuffled

variable {e e' : HoursEntry} (h : e.Shuffled e')
include h

theorem hours : e.hours.Perm e'.hours := by
  unfold HoursEntry.hours
  rw [h.openBefore, h.closeAfter, h.holiday]
  exact h.timeRanges.map _

theorem dates_eq_nil_iff : e.dates = [] ↔ e'.dates = [] := by
  rw [← List.length_eq_zero_iff, ← List.length_eq_zero_iff, h.dates.length_eq]

theorem isWeekly_iff : e.IsWeekly ↔ e'.IsWeekly := by
  rw [IsWeekly, IsWeekly, h.dates_eq_nil_iff, h.holiday]

theorem isFestive_iff : e.IsFestive ↔ e'.IsFestive := by
  rw [IsFestive, IsFestive, h.dates_eq_nil_iff, h.holiday]

theorem readable_iff : e.Readable ↔ e'.Readable := by
  simp only [Readable, h.isWeekly_iff, h.weekdays.mem_iff]

theorem weeklyHours (w : Weekday) : (e.weeklyHours w).Perm (e'.weeklyHours w) := by
  simp only [HoursEntry.weeklyHours, h.isWeekly_iff]
  split
  case isTrue => exact (h.weekdays.filter _).flatMap fun _ _ => h.hours
  case isFalse => exact .nil

theorem datedHours (d : MonthDay) : (e.datedHours d).Perm (e'.datedHours d) :=
  (h.dates.filter _).flatMap fun _ _ => h.hours

theorem festiveHours : e.festiveHours.Perm e'.festiveHours := by
  simp only [HoursEntry.festiveHours, h.isFestive_iff]
  split
  case isTrue => exact h.hours
  case isFalse => exact .nil

end HoursEntry.Shuffled

namespace Reordered

variable {entries entries' : List HoursEntry} (h : Reordered entries entries')
include h

theorem flatMap {f : HoursEntry → List OpeningHour}
    (hf : ∀ {e e'}, e.Shuffled e' → (f e).Perm (f e')) :
    (entries.flatMap f).Perm (entries'.flatMap f) := by
  obtain ⟨mid, hp, hs⟩ := h
  refine (hp.flatMap_right f).trans (List.Perm.flatten_congr ?_)
  rw [List.forall₂_map_left_iff, List.forall₂_map_right_iff]
  exact hs.imp fun _ _ => hf

theorem forall_mem_iff {p : HoursEntry → Prop} (hp : ∀ {e e'}, e.Shuffled e' → (p e ↔ p e')) :
    (∀ e ∈ entries, p e) ↔ ∀ e ∈ entries', p e := by
  obtain ⟨mid, hm, hs⟩ := h
  simp only [hm.mem_iff]
  clear hm
  induction hs with
  | nil => simp only [List.not_mem_nil]
  | cons hs _ ih => rw [List.forall_mem_cons, List.forall_mem_cons, hp hs, ih]

theorem sameHours :
    (RuleSetBuilder.ofEntries entries).SameHours (RuleSetBuilder.ofEntries entries') where
  regular w := by
    simp only [RuleSetBuilder.ofEntries_regular]
    exact h.flatMap fun hs => hs.weeklyHours w
  dated d := by
    have hd : (∃ e ∈ entries, d ∈ e.dates) ↔ ∃ e ∈ entries', d ∈ e.dates := by
      simpa using not_congr (h.forall_mem_iff fun hs => not_congr (hs.dates.mem_iff (a := d)))
    simp only [RuleSetBuilder.ofEntries_dated, hd]
    split
    case isTrue => exact .some (h.flatMap fun hs => hs.datedHours d)
    case isFalse => exact .none
  holiday := by
    refine (List.perm_ext_iff_of_nodup RuleSetBuilder.nodup_ofEntries_holiday
      RuleSetBuilder.nodup_ofEntries_holiday).mpr fun hour => ?_
    rw [RuleSetBuilder.mem_ofEntries_holiday, RuleSetBuilder.mem_ofEntries_holiday]
    exact (h.flatMap HoursEntry.Shuffled.festiveHours).mem_iff

end Reordered

theorem Config.ruleSet_eq_ok_iff_of_reordered {c c' : Config} {rules : RuleSet}
    (h : Reordered c.openingHours c'.openingHours) :
    c.ruleSet = .ok rules ↔ c'.ruleSet = .ok rules := by
  rw [Config.ruleSet_eq_ok_iff, Config.ruleSet_eq_ok_iff, h.sameHours.build_eq_ok_iff,
    h.forall_mem_iff HoursEntry.Shuffled.readable_iff]

-- Exactly the consistent entries are accepted, and reordered ones are accepted alike, with equal rules, or
-- refused alike.
theorem Config.ruleSet_consistent (c : Config) :
    ((∃ rules, c.ruleSet = .ok rules) ↔ Consistent c.openingHours) ∧
    ∀ c' : Config, Reordered c.openingHours c'.openingHours →
      (∃ rules, c.ruleSet = .ok rules ∧ c'.ruleSet = .ok rules) ∨
      ∃ fault fault', c.ruleSet = .error fault ∧ c'.ruleSet = .error fault' := by
  refine ⟨Config.ruleSet_isOk_iff, fun c' h => ?_⟩
  cases hc : c.ruleSet with
  | ok rules => exact .inl ⟨rules, rfl, (ruleSet_eq_ok_iff_of_reordered h).mp hc⟩
  | error fault =>
    cases hc' : c'.ruleSet with
    | ok rules =>
      have hok := (ruleSet_eq_ok_iff_of_reordered h).mpr hc'
      rw [hc] at hok
      cases hok
    | error fault' => exact .inr ⟨fault, fault', rfl, rfl⟩

-- Mondays and Wednesdays with a break at noon, holidays included, and a closed 24th of December.
def brokenDays : Config where
  openingHours := [
    { weekdays := ["Mon", "wednesday"]
      timeRanges := [
        ⟨⟨9, 10, by decide, by decide⟩, ⟨11, 10, by decide, by decide⟩, by decide⟩,
        ⟨⟨13, 10, by decide, by decide⟩, ⟨17, 10, by decide, by decide⟩, by decide⟩]
      openBeforeMinutes := 15
      holiday := .yes },
    { dates := [⟨12, 24, by decide⟩] }]

def brokenDaysReversed : Config where
  openingHours := brokenDays.openingHours.reverse.map fun e =>
    { e with weekdays := e.weekdays.reverse, timeRanges := e.timeRanges.reverse }

theorem reordered_brokenDays :
    Reordered brokenDays.openingHours brokenDaysReversed.openingHours := by
  refine ⟨brokenDays.openingHours.reverse, (List.reverse_perm _).symm, ?_⟩
  rw [brokenDaysReversed, List.forall₂_map_right_iff]
  exact List.forall₂_same.mpr fun e _ =>
    ⟨(List.reverse_perm _).symm, .refl _, (List.reverse_perm _).symm, rfl, rfl, rfl⟩

theorem ruleSet_brokenDays : Consistent brokenDays.openingHours ∧
    ∃ rules, brokenDays.ruleSet = .ok rules ∧ brokenDaysReversed.ruleSet = .ok rules := by
  have hc : Consistent brokenDays.openingHours := by decide +kernel
  have ⟨hok, hsame⟩ := Config.ruleSet_consistent brokenDays
  refine ⟨hc, (hsame _ reordered_brokenDays).resolve_right ?_⟩
  rintro ⟨fault, _, hf, _⟩
  have ⟨rules, hr⟩ := hok.mpr hc
  rw [hr] at hf
  cases hf

-- Hours of two entries that meet on Wednesdays.
example : ¬Consistent (brokenDays.openingHours ++ [
    { weekdays := ["Wed"]
      timeRanges := [
        ⟨⟨17, 10, by decide, by decide⟩, ⟨18, 10, by decide, by decide⟩, by decide⟩] }]) := by
  decide +kernel

end EntryDoor
