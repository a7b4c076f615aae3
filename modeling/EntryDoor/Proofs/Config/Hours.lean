import EntryDoor.Proofs.Config.Consistent
import EntryDoor.Proofs.Schedule.Seconds

namespace EntryDoor

-- A weekday that one of the entry's names denotes.
def HoursEntry.Names (e : HoursEntry) (w : Weekday) : Prop :=
  ∃ name ∈ e.weekdays, w.IsNamed name.toList

instance (e : HoursEntry) (w : Weekday) : Decidable (e.Names w) :=
  inferInstanceAs (Decidable (∃ name ∈ e.weekdays, w.IsNamed name.toList))

-- The hours of a date, up to their order. Those that entries give to a date or to a weekday are added up,
-- those of holidays are counted once.
inductive HoursOf (c : Config) (d : Date) (hours : List OpeningHour) : Prop
  | dated (hd : ∃ e ∈ c.openingHours, MonthDay.of d ∈ e.dates)
      (hp : hours.Perm
        ((c.openingHours.filter fun e => MonthDay.of d ∈ e.dates).flatMap HoursEntry.hours))
  | holiday (hd : ¬∃ e ∈ c.openingHours, MonthDay.of d ∈ e.dates)
      (hh : d ∈ c.holidays.fixed ∨ MonthDay.of d ∈ c.holidays.recurring) (hn : hours.Nodup)
      (hm : ∀ h, h ∈ hours ↔ ∃ e ∈ c.openingHours, (e.dates = [] ∧ e.holiday ≠ .no) ∧ h ∈ e.hours)
  | regular (hd : ¬∃ e ∈ c.openingHours, MonthDay.of d ∈ e.dates)
      (hh : ¬(d ∈ c.holidays.fixed ∨ MonthDay.of d ∈ c.holidays.recurring))
      (hp : hours.Perm ((c.openingHours.filter fun e =>
        (e.dates = [] ∧ e.holiday ≠ .only) ∧ e.Names d.weekday).flatMap HoursEntry.hours))

-- The schedule shows these hours on the date, in the order of their starts, each of them with the thresholds
-- of the entry that it comes from.
structure Shows (c : Config) (s : Schedule) (d : Date) (hours : List OpeningHour) : Prop where
  hoursOn : s.hoursOn d = hours.map fun h => h.on d c.location.zone
  ordered : hours.Pairwise fun a b => a.range.start < b.range.start
  thresholds : ∀ h ∈ hours, ∃ e ∈ c.openingHours, h.range ∈ e.timeRanges ∧
    h.openBefore = .ofMinutes e.openBeforeMinutes ∧ h.closeAfter = .ofMinutes e.closeAfterMinutes
  starts : ∀ offset, c.location.zone.Constant offset →
    (s.hoursOn d).Pairwise fun a b => a.start < b.start

section

variable {α β : Type} {l : List α} {xs : List β}

theorem flatMap_const_of_nodup (hl : l ≠ []) (h : (l.flatMap fun _ => xs).Nodup) :
    (l.flatMap fun _ => xs) = xs := by
  cases l with
  | nil => exact absurd rfl hl
  | cons a l =>
    cases l with
    | nil => exact List.append_nil xs
    | cons b l =>
      -- What is there twice is nothing at all.
      have hnil : xs = [] := List.eq_nil_iff_forall_not_mem.mpr fun x hx =>
        (List.nodup_append.mp h).2.2 x hx x (List.mem_append_left _ hx) rfl
      simp [hnil]

theorem flatMap_eq_flatMap_filter {p : α → Prop} [DecidablePred p] {f g : α → List β}
    (h : ∀ a ∈ l, f a = if p a then g a else []) : l.flatMap f = (l.filter p).flatMap g := by
  rw [List.flatMap_congr h]
  induction l with
  | nil => rfl
  | cons a l ih =>
    rw [List.flatMap_cons, ih fun b hb => h b (List.mem_cons_of_mem a hb), List.filter_cons]
    split <;> simp_all

end

theorem OpeningHour.nodup_of_not_overlaps {hours : List OpeningHour}
    (h : hours.Pairwise fun a b => ¬a.Overlaps b) : hours.Nodup := by
  refine List.Pairwise.imp (fun hn heq => hn ?_) h
  exact heq ▸ overlaps_self _

variable {entries : List HoursEntry} {d : MonthDay} {w : Weekday}

theorem flatMap_datedHours (h : (entries.flatMap (·.datedHours d)).Nodup) :
    entries.flatMap (·.datedHours d) =
      (entries.filter fun e => d ∈ e.dates).flatMap HoursEntry.hours := by
  refine flatMap_eq_flatMap_filter fun e he => ?_
  split
  case isTrue hd =>
    have hnodup := (List.nodup_flatMap.mp h).1 e he
    refine flatMap_const_of_nodup (List.ne_nil_of_mem (a := d) ?_) hnodup
    exact List.mem_filter.mpr ⟨hd, decide_eq_true rfl⟩
  case isFalse hd => exact HoursEntry.datedHours_eq_nil hd

theorem flatMap_weeklyHours (h : (entries.flatMap (·.weeklyHours w)).Nodup) :
    entries.flatMap (·.weeklyHours w) =
      (entries.filter fun e => e.IsWeekly ∧ e.Names w).flatMap HoursEntry.hours := by
  refine flatMap_eq_flatMap_filter fun e he => ?_
  have hnodup := (List.nodup_flatMap.mp h).1 e he
  unfold HoursEntry.weeklyHours at hnodup ⊢
  by_cases hw : e.IsWeekly
  case neg => rw [if_neg hw, if_neg fun hn => hw hn.1]
  case pos =>
    rw [if_pos hw] at hnodup ⊢
    split
    case isTrue hn =>
      obtain ⟨-, name, hmem, hname⟩ := hn
      refine flatMap_const_of_nodup (List.ne_nil_of_mem (a := name) ?_) hnodup
      exact List.mem_filter.mpr ⟨hmem, decide_eq_true hname⟩
    case isFalse hn =>
      rw [List.filter_eq_nil_iff.mpr, List.flatMap_nil]
      exact fun name hmem hname => hn ⟨hw, name, hmem, of_decide_eq_true hname⟩

theorem mem_flatMap_festiveHours {h : OpeningHour} :
    h ∈ entries.flatMap (·.festiveHours) ↔ ∃ e ∈ entries, e.IsFestive ∧ h ∈ e.hours := by
  rw [List.mem_flatMap]
  refine exists_congr fun e => and_congr_right fun _ => ?_
  unfold HoursEntry.festiveHours
  split <;> simp_all

namespace Config

variable {c : Config} {rules : RuleSet} {d : Date}

theorem provider_ok (c : Config) (d : Date) :
    c.holidayCalendar.provider c.location.country d =
      .ok (decide (d ∈ c.holidays.fixed ∨ MonthDay.of d ∈ c.holidays.recurring)) :=
  if_pos rfl

theorem layerFor_scheduleOf : ((c.scheduleOf rules).layerFor d).2 =
    (rules.dated (MonthDay.of d)).getD
      (if d ∈ c.holidays.fixed ∨ MonthDay.of d ∈ c.holidays.recurring then rules.holiday
      else rules.regular d.weekday) := by
  simp only [Schedule.layerFor, scheduleOf, provider_ok]
  cases rules.dated (MonthDay.of d) with
  | some hours => rfl
  | none =>
    by_cases hh : d ∈ c.holidays.fixed ∨ MonthDay.of d ∈ c.holidays.recurring
    case pos => simp [hh]
    case neg => simp [hh]

theorem hoursOf_layerFor (h : c.ruleSet = .ok rules) :
    HoursOf c d ((c.scheduleOf rules).layerFor d).2 := by
  obtain ⟨hb, rfl⟩ := RuleSetBuilder.build_eq_ok_iff.mp (ruleSet_eq_ok_iff.mp h).2
  rw [layerFor_scheduleOf]
  simp only [RuleSetBuilder.sortedRules, RuleSetBuilder.ofEntries_dated]
  by_cases hd : ∃ e ∈ c.openingHours, MonthDay.of d ∈ e.dates
  case pos =>
    have hn := hb.dated (MonthDay.of d) _ (by rw [RuleSetBuilder.ofEntries_dated, if_pos hd])
    rw [if_pos hd]
    refine .dated hd ((RuleSetBuilder.sorted_perm _).trans (.of_eq ?_))
    exact flatMap_datedHours (OpeningHour.nodup_of_not_overlaps hn)
  case neg =>
    rw [if_neg hd]
    by_cases hh : d ∈ c.holidays.fixed ∨ MonthDay.of d ∈ c.holidays.recurring
    case pos =>
      rw [if_pos hh]
      refine .holiday hd hh ((RuleSetBuilder.sorted_perm _).nodup_iff.mpr
        RuleSetBuilder.nodup_ofEntries_holiday) fun hour => ?_
      exact (RuleSetBuilder.sorted_perm _).mem_iff.trans
        (RuleSetBuilder.mem_ofEntries_holiday.trans mem_flatMap_festiveHours)
    case neg =>
      have hn := hb.regular d.weekday
      rw [RuleSetBuilder.ofEntries_regular] at hn
      rw [if_neg hh]
      refine .regular hd hh ((RuleSetBuilder.sorted_perm _).trans (.of_eq ?_))
      rw [RuleSetBuilder.ofEntries_regular]
      exact flatMap_weeklyHours (OpeningHour.nodup_of_not_overlaps hn)

end Config

theorem HoursOf.exists_entry {c : Config} {d : Date} {hours : List OpeningHour} {h : OpeningHour}
    (ho : HoursOf c d hours) (hm : h ∈ hours) : ∃ e ∈ c.openingHours, h ∈ e.hours := by
  cases ho
  case dated _ hp =>
    have ⟨e, he, hmem⟩ := List.mem_flatMap.mp (hp.mem_iff.mp hm)
    exact ⟨e, List.mem_of_mem_filter he, hmem⟩
  case holiday _ _ _ hiff =>
    have ⟨e, he, _, hmem⟩ := (hiff h).mp hm
    exact ⟨e, he, hmem⟩
  case regular _ _ hp =>
    have ⟨e, he, hmem⟩ := List.mem_flatMap.mp (hp.mem_iff.mp hm)
    exact ⟨e, List.mem_of_mem_filter he, hmem⟩

theorem HoursEntry.of_mem_hours {e : HoursEntry} {h : OpeningHour} (hm : h ∈ e.hours) :
    h.range ∈ e.timeRanges ∧ h.openBefore = .ofMinutes e.openBeforeMinutes ∧
      h.closeAfter = .ofMinutes e.closeAfterMinutes := by
  obtain ⟨range, hr, rfl⟩ := List.mem_map.mp hm
  exact ⟨hr, rfl, rfl⟩

namespace Config

variable {c : Config} {rules : RuleSet} {d : Date}

theorem shows_layerFor (h : c.ruleSet = .ok rules) :
    Shows c (c.scheduleOf rules) d ((c.scheduleOf rules).layerFor d).2 where
  hoursOn := rfl
  ordered := by
    have ha := RuleSet.apart_of_build (ruleSet_eq_ok_iff.mp h).2
    exact (Schedule.apart_layerFor ha).imp OpeningHour.start_lt_of_closesAt_lt
  thresholds hour hm := by
    have ⟨e, he, hmem⟩ := (hoursOf_layerFor h).exists_entry hm
    exact ⟨e, he, HoursEntry.of_mem_hours hmem⟩
  starts offset hz :=
    Schedule.hoursOn_pairwise hz (RuleSet.apart_of_build (ruleSet_eq_ok_iff.mp h).2)

-- With rules there is a schedule. Its calendar always answers, and each date has the hours that the
-- entries give to it.
theorem hoursOf_schedule (h : c.ruleSet = .ok rules) : ∃ s, c.schedule = .ok s ∧
    (∀ d, s.holidays s.country d =
      .ok (decide (d ∈ c.holidays.fixed ∨ MonthDay.of d ∈ c.holidays.recurring))) ∧
    ∀ d, ∃ hours, HoursOf c d hours ∧ Shows c s d hours := by
  refine ⟨c.scheduleOf rules, by rw [schedule, h]; rfl, provider_ok c, fun d => ?_⟩
  exact ⟨_, hoursOf_layerFor h, shows_layerFor h⟩

-- Entries have thresholds of full minutes, so that the check of the rules sees all of them.
theorem apart_scheduleOf {offset : Int} (h : c.ruleSet = .ok rules)
    (hz : c.location.zone.Constant offset) : (c.scheduleOf rules).Apart d := by
  have ha := RuleSet.apart_of_build (ruleSet_eq_ok_iff.mp h).2
  refine Schedule.apart_of_fullMinutes hz ha fun hour hm => ?_
  have ⟨e, _, _, hopen, hclose⟩ := (shows_layerFor h).thresholds hour hm
  rw [hopen, hclose]
  exact ⟨Duration.beyondMinutes_ofMinutes _, Duration.beyondMinutes_ofMinutes _⟩

end Config

-- Mondays from seven, holidays from ten, and a closed 26th of December, which is a holiday too.
def alpineYear : Config where
  location := { zone := ⟨"UTC", 0, []⟩ }
  holidays := { recurring := [⟨1, 6, by decide⟩, ⟨12, 26, by decide⟩] }
  openingHours := [
    { weekdays := ["monday"]
      timeRanges := [⟨⟨7, 20, by decide, by decide⟩, ⟨10, 20, by decide, by decide⟩, by decide⟩] },
    { timeRanges := [⟨⟨10, 20, by decide, by decide⟩, ⟨14, 20, by decide, by decide⟩, by decide⟩]
      openBeforeMinutes := 30
      holiday := .only },
    { dates := [⟨12, 26, by decide⟩] }]

def alpineHour : OpeningHour where
  range := ⟨⟨10, 20, by decide, by decide⟩, ⟨14, 20, by decide, by decide⟩, by decide⟩
  openBefore := .ofMinutes 30
  closeAfter := .ofMinutes 0
  onHolidays := true

-- The 6th of January of 2025, a Monday, and the 26th of December before.
theorem hoursOf_schedule_alpineYear : ∃ rules s, alpineYear.ruleSet = .ok rules ∧
    alpineYear.schedule = .ok s ∧
    s.hoursOn ⟨20094⟩ = [alpineHour.on ⟨20094⟩ alpineYear.location.zone] ∧
    s.hoursOn ⟨20083⟩ = [] := by
  have hc : Consistent alpineYear.openingHours := by decide +kernel
  obtain ⟨rules, hr⟩ := Config.ruleSet_isOk_iff.mpr hc
  obtain ⟨s, hs, -, hday⟩ := Config.hoursOf_schedule hr
  refine ⟨rules, s, hr, hs, ?monday, ?december⟩
  case monday =>
    obtain ⟨hours, ho, hshow⟩ := hday ⟨20094⟩
    cases ho
    case dated hd _ => exact absurd hd (by decide +kernel)
    case regular hh _ => exact absurd (by decide +kernel) hh
    case holiday hn hm =>
      have hp : hours.Perm [alpineHour] := by
        refine (List.perm_ext_iff_of_nodup hn (List.nodup_singleton _)).mpr fun h => (hm h).trans ?_
        simp only [alpineYear, alpineHour, HoursEntry.hours]
        simpa using eq_comm
      rw [hshow.hoursOn, List.perm_singleton.mp hp]
      rfl
  case december =>
    obtain ⟨hours, ho, hshow⟩ := hday ⟨20083⟩
    cases ho
    case dated hp =>
      have hnil : hours = [] := List.Perm.eq_nil hp
      rw [hshow.hoursOn, hnil, List.map_nil]
    case holiday hd _ _ _ => exact absurd (by decide +kernel) hd
    case regular hd _ _ => exact absurd (by decide +kernel) hd

end EntryDoor
