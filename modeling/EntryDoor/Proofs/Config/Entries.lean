import EntryDoor.Config.Rules
import EntryDoor.Proofs.Schedule.Overlap
import Mathlib.Data.List.Flatten
import Mathlib.Data.List.Nodup
import Mathlib.Data.List.Perm.Basic

namespace EntryDoor

open RuleSetBuilder

theorem Except.mapError_eq_ok {α ε ε' : Type} {x : Except ε α} {f : ε → ε'} {y : α} :
    x.mapError f = .ok y ↔ x = .ok y := by
  cases x <;> simp [Except.mapError]

namespace Weekday

variable {w w' : Weekday} {name : List Char}

def spellings (w : Weekday) : List (List Char) :=
  [w.fullName.toList, w.fullName.toList.take 3]

theorem isNamed_iff : w.IsNamed name ↔ Text.lowerAscii (Text.trim name) ∈ w.spellings := by
  simp [IsNamed, spellings]

theorem eq_of_mem_spellings {word : List Char} (h : word ∈ w.spellings) (h' : word ∈ w'.spellings) :
    w = w' := by
  have hall : ∀ a ∈ all, ∀ b ∈ all, a = b ∨ ∀ word ∈ a.spellings, word ∉ b.spellings := by
    decide +kernel
  exact (hall w w.mem_all w' w'.mem_all).resolve_right fun hn => hn word h h'

-- A name denotes one weekday at most, so the first one found is the one.
theorem read_eq_ok_iff {name : String} : Weekday.read name = .ok w ↔ w.IsNamed name.toList := by
  unfold Weekday.read named?
  constructor
  case mp =>
    intro h
    split at h
    case h_1 hf => cases h; simpa using List.find?_some hf
    case h_2 => cases h
  case mpr =>
    intro h
    split
    case h_1 w' hf =>
      have h' : w'.IsNamed name.toList := by simpa using List.find?_some hf
      rw [eq_of_mem_spellings (isNamed_iff.mp h) (isNamed_iff.mp h')]
    case h_2 hf => simpa [h] using List.find?_eq_none.mp hf w w.mem_all

end Weekday

namespace HoursEntry

-- The entry is for weekdays, maybe among others.
def IsWeekly (e : HoursEntry) : Prop :=
  e.dates = [] ∧ e.holiday ≠ .only

-- The entry is for holidays, maybe among others.
def IsFestive (e : HoursEntry) : Prop :=
  e.dates = [] ∧ e.holiday ≠ .no

instance (e : HoursEntry) : Decidable e.IsWeekly :=
  inferInstanceAs (Decidable (e.dates = [] ∧ e.holiday ≠ .only))

instance (e : HoursEntry) : Decidable e.IsFestive :=
  inferInstanceAs (Decidable (e.dates = [] ∧ e.holiday ≠ .no))

-- The weekdays of an entry that is not for weekdays are never read.
def Readable (e : HoursEntry) : Prop :=
  e.IsWeekly → ∀ name ∈ e.weekdays, ∃ w, Weekday.read name = .ok w

-- The hours that an entry gives to a weekday, once for each name that denotes it.
def weeklyHours (e : HoursEntry) (w : Weekday) : List OpeningHour :=
  if e.IsWeekly then (e.weekdays.filter fun name => w.IsNamed name.toList).flatMap fun _ => e.hours
  else []

-- The hours that an entry gives to a recurring day, once for each time that it lists the day.
def datedHours (e : HoursEntry) (d : MonthDay) : List OpeningHour :=
  (e.dates.filter (· = d)).flatMap fun _ => e.hours

theorem datedHours_eq_nil {e : HoursEntry} {d : MonthDay} (h : d ∉ e.dates) :
    e.datedHours d = [] := by
  rw [datedHours, List.filter_eq_nil_iff.mpr, List.flatMap_nil]
  exact fun day hd => by simpa using ne_of_mem_of_not_mem hd h

def festiveHours (e : HoursEntry) : List OpeningHour :=
  if e.IsFestive then e.hours else []

-- Hours together with those that are new among others, the new ones in order.
def unite (hours others : List OpeningHour) : List OpeningHour :=
  others.foldl (fun hours h => if h ∈ hours then hours else hours ++ [h]) hours

-- A builder with what the entry contributes to it. A day that the entry lists has hours of its own from
-- then on, if only none.
def contribute (e : HoursEntry) (b : RuleSetBuilder) : RuleSetBuilder where
  regular w := b.regular w ++ e.weeklyHours w
  dated d := if d ∈ e.dates then some ((b.dated d).getD [] ++ e.datedHours d) else b.dated d
  holiday := unite b.holiday e.festiveHours

variable {e : HoursEntry} {b b' : RuleSetBuilder} {day d : MonthDay} {w : Weekday}
  {hours : List OpeningHour} {days : List MonthDay} {names : List String}

theorem foldl_addDated (hn : hours ≠ []) :
    hours.foldl (fun b h => b.addDated day h) b = { b with
      dated := fun d =>
        if d = day then some ((b.dated d).getD [] ++ hours) else b.dated d } := by
  induction hours generalizing b with
  | nil => exact absurd rfl hn
  | cons h hours ih =>
    cases hours with
    | nil => rfl
    | cons h' hours =>
      rw [List.foldl_cons, ih nofun]
      simp only [RuleSetBuilder.addDated, RuleSetBuilder.mk.injEq, true_and, and_true]
      funext d
      split <;> simp

theorem addDated_eq : e.addDated b day = { b with
    dated := fun d => if d = day then some ((b.dated d).getD [] ++ e.hours) else b.dated d } := by
  unfold addDated
  split
  case h_1 h => simp [closeOn, h]
  case h_2 hn => exact foldl_addDated fun h => hn h

theorem foldl_dates : days.foldl e.addDated b = { b with
    dated := fun d =>
      if d ∈ days then
        some ((b.dated d).getD [] ++ (days.filter (· = d)).flatMap fun _ => e.hours)
      else b.dated d } := by
  induction days generalizing b with
  | nil => simp
  | cons day days ih =>
    rw [List.foldl_cons, ih, addDated_eq]
    simp only [RuleSetBuilder.mk.injEq, true_and, and_true]
    funext d
    by_cases hd : d = day
    case pos =>
      subst hd
      by_cases hm : d ∈ days
      case pos => simp [hm, List.append_assoc]
      case neg =>
        have hnil : days.filter (· = d) = [] :=
          List.filter_eq_nil_iff.mpr fun x hx => by simpa using ne_of_mem_of_not_mem hx hm
        simp [hm, hnil]
    case neg => simp [hd, Ne.symm hd]

theorem foldl_addRegular : hours.foldl (fun b h => b.addRegular w h) b = { b with
    regular := fun w' => if w' = w then b.regular w' ++ hours else b.regular w' } := by
  induction hours generalizing b with
  | nil => simp
  | cons h hours ih =>
    rw [List.foldl_cons, ih]
    simp only [addRegular, RuleSetBuilder.mk.injEq, and_true]
    funext w'
    split <;> simp

theorem addWeekday_eq_ok_iff {name : String} : e.addWeekday b name = .ok b' ↔
    ∃ w, Weekday.read name = .ok w ∧ { b with
      regular := fun w' => if w' = w then b.regular w' ++ e.hours else b.regular w' } = b' := by
  simp only [addWeekday, Except.bind_eq_ok, foldl_addRegular]
  exact exists_congr fun w => and_congr_right fun _ => ⟨Except.ok.inj, congrArg Except.ok⟩

theorem foldlM_weekdays : names.foldlM e.addWeekday b = .ok b' ↔
    (∀ name ∈ names, ∃ w, Weekday.read name = .ok w) ∧ { b with
      regular := fun w => b.regular w ++
        (names.filter fun name => w.IsNamed name.toList).flatMap fun _ => e.hours } = b' := by
  induction names generalizing b with
  | nil => simp [pure, Except.pure]
  | cons name names ih =>
    -- The first name gives the hours to the weekday that it denotes, before those of the other names.
    have hfirst : ∀ w, Weekday.read name = .ok w → ∀ w',
        (if w' = w then b.regular w' ++ e.hours else b.regular w') ++
          (names.filter fun name => w'.IsNamed name.toList).flatMap (fun _ => e.hours) =
        b.regular w' ++
          ((name :: names).filter fun name => w'.IsNamed name.toList).flatMap fun _ => e.hours := by
      intro w hw w'
      have hn : w'.IsNamed name.toList ↔ w' = w := by
        rw [← Weekday.read_eq_ok_iff, hw, Except.ok.injEq, eq_comm]
      rw [List.filter_cons]
      by_cases h : w' = w
      case pos =>
        rw [if_pos h, if_pos (by simpa using hn.mpr h), List.append_assoc, List.flatMap_cons]
      case neg => rw [if_neg h, if_neg (by simpa using mt hn.mp h)]
    rw [List.foldlM_cons, Except.bind_eq_ok, List.forall_mem_cons]
    simp only [addWeekday_eq_ok_iff, ih]
    constructor
    case mp =>
      rintro ⟨_, ⟨w, hw, rfl⟩, hnames, rfl⟩
      exact ⟨⟨⟨w, hw⟩, hnames⟩, by simp only [hfirst w hw]⟩
    case mpr =>
      rintro ⟨⟨⟨w, hw⟩, hnames⟩, rfl⟩
      exact ⟨_, ⟨w, hw, rfl⟩, hnames, by simp only [hfirst w hw]⟩

theorem unite_append {others : List OpeningHour} {more : List OpeningHour} :
    unite hours (others ++ more) = unite (unite hours others) more :=
  List.foldl_append

theorem nodup_unite {others : List OpeningHour} (h : hours.Nodup) : (unite hours others).Nodup := by
  induction others generalizing hours with
  | nil => exact h
  | cons a others ih =>
    refine ih ?_
    dsimp only
    split
    case isTrue => exact h
    case isFalse hn => exact List.concat_eq_append ▸ h.concat hn

theorem mem_unite {others : List OpeningHour} {h : OpeningHour} :
    h ∈ unite hours others ↔ h ∈ hours ∨ h ∈ others := by
  induction others generalizing hours with
  | nil => simp [unite]
  | cons a others ih =>
    rw [unite, List.foldl_cons, ← unite, ih]
    split <;> grind

theorem addHolidays_eq :
    e.addHolidays b = { b with holiday := unite b.holiday e.hours } := by
  unfold addHolidays unite
  generalize e.hours = hours
  induction hours generalizing b with
  | nil => rfl
  | cons a hours ih =>
    rw [List.foldl_cons, List.foldl_cons, ih]
    split <;> rfl

theorem contribute_of_dated (hd : e.dates ≠ []) : e.contribute b = e.dates.foldl e.addDated b := by
  have hw : ¬e.IsWeekly := fun h => hd h.1
  have hf : ¬e.IsFestive := fun h => hd h.1
  simp [foldl_dates, contribute, weeklyHours, festiveHours, datedHours, unite, hw, hf]

theorem contribute_of_undated (hd : e.dates = []) : e.contribute b = { b with
    regular := fun w => b.regular w ++ e.weeklyHours w
    holiday := unite b.holiday e.festiveHours } := by
  simp [contribute, hd]

theorem readWeekdays_eq_ok_iff (hd : e.dates = []) :
    (if e.holiday = .only then pure b else e.weekdays.foldlM e.addWeekday b) = .ok b' ↔
      e.Readable ∧ { b with regular := fun w => b.regular w ++ e.weeklyHours w } = b' := by
  split
  case isTrue ho =>
    have hw : ¬e.IsWeekly := fun h => h.2 ho
    simp [Readable, weeklyHours, hw, pure, Except.pure]
  case isFalse ho =>
    have hw : e.IsWeekly := ⟨hd, ho⟩
    simp only [foldlM_weekdays, Readable, weeklyHours, hw, forall_const, if_true]

theorem holidays_eq (hd : e.dates = []) : (if e.holiday = .no then b else e.addHolidays b) =
    { b with holiday := unite b.holiday e.festiveHours } := by
  rw [addHolidays_eq]
  split
  case isTrue hn =>
    have hf : ¬e.IsFestive := fun h => h.2 hn
    simp [festiveHours, hf, unite]
  case isFalse hn =>
    have hf : e.IsFestive := ⟨hd, hn⟩
    rw [festiveHours, if_pos hf]

theorem addTo_of_undated (hd : e.dates = []) : e.addTo b =
    (if e.holiday = .only then pure b else e.weekdays.foldlM e.addWeekday b) >>= fun b =>
      .ok (if e.holiday = .no then b else e.addHolidays b) := by
  rw [addTo, if_neg (not_not.mpr hd)]
  by_cases ho : e.holiday = .only
  case pos => simp only [ho, if_true]; rfl
  case neg => simp only [ho, if_false]; rfl

-- An entry is added if the names of its weekdays are read, as far as they are.
theorem addTo_eq_ok_iff : e.addTo b = .ok b' ↔ e.Readable ∧ e.contribute b = b' := by
  by_cases hd : e.dates = []
  case pos =>
    simp only [addTo_of_undated hd, Except.bind_eq_ok, readWeekdays_eq_ok_iff hd, holidays_eq hd,
      contribute_of_undated hd, Except.ok.injEq]
    constructor
    case mp =>
      rintro ⟨_, ⟨hr, rfl⟩, rfl⟩
      exact ⟨hr, rfl⟩
    case mpr =>
      rintro ⟨hr, rfl⟩
      exact ⟨_, ⟨hr, rfl⟩, rfl⟩
  case neg =>
    have hr : e.Readable := fun h => absurd h.1 hd
    rw [addTo, if_pos hd, contribute_of_dated hd]
    exact ⟨fun h => ⟨hr, Except.ok.inj h⟩, fun h => congrArg Except.ok h.2⟩

end HoursEntry

namespace RuleSetBuilder

-- What the entries contribute together, in their order.
def ofEntries (entries : List HoursEntry) : RuleSetBuilder :=
  entries.foldl (fun b e => e.contribute b) .empty

variable {entries : List HoursEntry} {b b' : RuleSetBuilder}

theorem foldlM_addTo : entries.foldlM (fun b e => e.addTo b) b = .ok b' ↔
    (∀ e ∈ entries, e.Readable) ∧ entries.foldl (fun b e => e.contribute b) b = b' := by
  induction entries generalizing b with
  | nil => simp [pure, Except.pure]
  | cons e entries ih =>
    simp only [List.foldlM_cons, Except.bind_eq_ok, HoursEntry.addTo_eq_ok_iff, ih,
      List.forall_mem_cons, List.foldl_cons]
    constructor
    case mp =>
      rintro ⟨_, ⟨hr, rfl⟩, hrs, hb⟩
      exact ⟨⟨hr, hrs⟩, hb⟩
    case mpr =>
      rintro ⟨⟨hr, hrs⟩, hb⟩
      exact ⟨_, ⟨hr, rfl⟩, hrs, hb⟩

-- A day that no entry lists gets no hours from them.
theorem flatMap_datedHours_eq_nil {d : MonthDay} (h : ¬∃ e ∈ entries, d ∈ e.dates) :
    entries.flatMap (·.datedHours d) = [] :=
  List.flatMap_eq_nil_iff.mpr fun e he => HoursEntry.datedHours_eq_nil fun hd => h ⟨e, he, hd⟩

theorem foldl_contribute : entries.foldl (fun b e => e.contribute b) b = {
    regular := fun w => b.regular w ++ entries.flatMap (·.weeklyHours w)
    dated := fun d => if ∃ e ∈ entries, d ∈ e.dates then
      some ((b.dated d).getD [] ++ entries.flatMap (·.datedHours d)) else b.dated d
    holiday := HoursEntry.unite b.holiday (entries.flatMap (·.festiveHours)) } := by
  induction entries generalizing b with
  | nil => simp [HoursEntry.unite]
  | cons e entries ih =>
    rw [List.foldl_cons, ih]
    simp only [HoursEntry.contribute, List.flatMap_cons, HoursEntry.unite_append, List.append_assoc,
      RuleSetBuilder.mk.injEq, true_and, and_true]
    funext d
    by_cases he : d ∈ e.dates
    case pos =>
      by_cases hes : ∃ e ∈ entries, d ∈ e.dates
      case pos => simp [he, hes]
      case neg => simp [he, hes, flatMap_datedHours_eq_nil hes]
    case neg => simp [he, HoursEntry.datedHours_eq_nil he]

theorem ofEntries_regular {w : Weekday} :
    (ofEntries entries).regular w = entries.flatMap (·.weeklyHours w) := by
  rw [ofEntries, foldl_contribute]
  rfl

theorem ofEntries_dated {d : MonthDay} : (ofEntries entries).dated d =
    if ∃ e ∈ entries, d ∈ e.dates then some (entries.flatMap (·.datedHours d)) else none := by
  rw [ofEntries, foldl_contribute]
  rfl

theorem mem_ofEntries_holiday {h : OpeningHour} :
    h ∈ (ofEntries entries).holiday ↔ h ∈ entries.flatMap (·.festiveHours) := by
  rw [ofEntries, foldl_contribute, HoursEntry.mem_unite]
  exact or_iff_right List.not_mem_nil

theorem nodup_ofEntries_holiday : (ofEntries entries).holiday.Nodup := by
  rw [ofEntries, foldl_contribute]
  exact HoursEntry.nodup_unite .nil

end RuleSetBuilder

-- The rules are what comes of all contributions, if the names of the weekdays can be read.
theorem Config.ruleSet_eq_ok_iff {c : Config} {rules : RuleSet} : c.ruleSet = .ok rules ↔
    (∀ e ∈ c.openingHours, e.Readable) ∧
      (RuleSetBuilder.ofEntries c.openingHours).build = .ok rules := by
  simp only [Config.ruleSet, Except.mapError_eq_ok, Except.bind_eq_ok, RuleSetBuilder.foldlM_addTo]
  constructor
  case mp =>
    rintro ⟨_, ⟨hr, rfl⟩, hb⟩
    exact ⟨hr, hb⟩
  case mpr =>
    rintro ⟨hr, hb⟩
    exact ⟨_, ⟨hr, rfl⟩, hb⟩

end EntryDoor
