import EntryDoor.Proofs.Schedule.Placed

namespace EntryDoor

namespace Schedule

variable {s : Schedule} {d d' : Date} {i j : Interval} {t : Timestamp} {offset : Int}

theorem mentions_of_mem_layerFor {h : OpeningHour} (hm : h ∈ (s.layerFor d).2) :
    s.rules.Mentions h := by
  unfold layerFor at hm
  split at hm
  case h_1 hd => exact .dated _ _ hd hm
  case h_2 =>
    split at hm
    case h_1 => exact .holiday hm
    case h_2 => exact .regular _ hm

theorem apart_layerFor (h : s.rules.Apart) :
    (s.layerFor d).2.Pairwise fun a b => a.closesAt < b.opensAt := by
  unfold layerFor
  split
  case h_1 hd => exact h.dated _ _ hd
  case h_2 =>
    split
    case h_1 => exact h.holiday
    case h_2 => exact h.regular _

-- The intervals of one date start one after another.
theorem hoursOn_pairwise (hz : s.zone.Constant offset) (h : s.rules.Apart) :
    (s.hoursOn d).Pairwise fun a b => a.start < b.start :=
  List.pairwise_map.mpr ((apart_layerFor h).imp (OpeningHour.on_start_lt hz))

theorem eq_of_start_eq (hz : s.zone.Constant offset) (h : s.rules.Apart) (hi : i ∈ s.hoursOn d)
    (hj : j ∈ s.hoursOn d) (heq : i.start = j.start) : i = j := by
  have hne : ∀ a b : Interval, a.start < b.start → a.start ≠ b.start := by
    intro a b hlt heq
    rw [heq] at hlt
    exact absurd hlt (Int.lt_irrefl _)
  have hp := hoursOn_pairwise (d := d) hz h
  refine List.Pairwise.forall_of_forall_of_flip (R := fun a b => a.start = b.start → a = b)
    (fun _ _ _ => rfl) (hp.imp fun hlt h => ?_) (hp.imp fun hlt h => ?_) hi hj heq
  case refine_1 => exact absurd h (hne _ _ hlt)
  case refine_2 => exact absurd h.symm (hne _ _ hlt)

-- Tomorrow is looked at only if nothing of yesterday is left.
theorem gather_three : s.gather t 1 3 d 1 [] =
    (if s.openHoursOn t d = [] then [d, d.next, d.next.next] else [d, d.next]).flatMap
      (s.openHoursOn t) := by
  cases hd : s.openHoursOn t d <;> cases hn : s.openHoursOn t d.next <;>
    simp [gather, hd, hn]

theorem mem_byStart {intervals : List Interval} : i ∈ byStart intervals ↔ i ∈ intervals :=
  List.mem_mergeSort

theorem start_trans (a b c : Interval) : decide (a.start ≤ b.start) → decide (b.start ≤ c.start) →
    decide (a.start ≤ c.start) := by
  simpa using Timestamp.le_trans

theorem start_total (a b : Interval) :
    decide (a.start ≤ b.start) || decide (b.start ≤ a.start) := by
  simpa using Timestamp.le_total a.start b.start

-- The first of the intervals in order: the earliest, and among those the one that was found first.
theorem byStart_first {intervals rest : List Interval} (h : byStart intervals = i :: rest) :
    ∃ before after, intervals = before ++ i :: after ∧ (∀ j ∈ before, i.start < j.start) ∧
      ∀ j ∈ after, i.start ≤ j.start := by
  unfold byStart at h
  induction intervals generalizing rest with
  | nil => simp at h
  | cons a intervals ih =>
    have ⟨front, back, hs, hs', hfront⟩ := List.mergeSort_cons start_trans start_total a intervals
    rw [hs] at h
    cases front with
    -- The head comes first, nothing of the rest is before it in order.
    | nil =>
      cases h
      refine ⟨[], intervals, rfl, nofun, fun j hj => ?_⟩
      have hp := List.pairwise_mergeSort start_trans start_total (i :: intervals)
      rw [hs] at hp
      have hj : j ∈ rest := by rwa [← List.mem_mergeSort, hs'] at hj
      simpa using (List.pairwise_cons.mp hp).1 j hj
    -- Something of the rest comes first, and it starts earlier than the head.
    | cons b front =>
      cases h
      obtain ⟨before, after, rfl, hbefore, hafter⟩ := ih hs'
      refine ⟨a :: before, after, rfl, fun j hj => ?_, hafter⟩
      cases hj with
      | head => simpa using hfront i List.mem_cons_self
      | tail _ hj => exact hbefore j hj

-- An interval found for one of the dates comes after all of those found for the dates before.
theorem flatMap_split {dates : List Date} {f : Date → List Interval}
    {before after : List Interval} (h : dates.flatMap f = before ++ i :: after) :
    ∃ earlier d later, dates = earlier ++ d :: later ∧ i ∈ f d ∧
      ∀ d' ∈ earlier, ∀ j ∈ f d', j ∈ before := by
  induction dates generalizing before with
  | nil => simp at h
  | cons d dates ih =>
    rw [List.flatMap_cons] at h
    -- The interval is one of `d`, or it comes after all of these.
    have hd : (∃ more, f d = before ++ i :: more) ∨
        ∃ more, before = f d ++ more ∧ dates.flatMap f = more ++ i :: after := by
      rcases List.append_eq_append_iff.mp h with ⟨more, hb, hm⟩ | ⟨more, hb, hm⟩
      case inl => exact .inr ⟨more, hb, hm⟩
      case inr =>
        cases more with
        | nil => exact .inr ⟨[], by simpa using hb.symm, hm.symm⟩
        | cons j more =>
          cases hm
          exact .inl ⟨more, hb⟩
    rcases hd with ⟨more, hd⟩ | ⟨more, rfl, hm⟩
    case inl => exact ⟨[], d, dates, rfl, by simp [hd], nofun⟩
    case inr =>
      obtain ⟨earlier, d', later, rfl, hi, he⟩ := ih hm
      refine ⟨d :: earlier, d', later, rfl, hi, fun d'' hd j hj => ?_⟩
      cases hd with
      | head => exact List.mem_append_left _ hj
      | tail _ hd => exact List.mem_append_right _ (he d'' hd j hj)

-- An interval comes before another one if it starts earlier, or at the same time on an earlier date.
def Precedes (d : Date) (i : Interval) (d' : Date) (j : Interval) : Prop :=
  i.start < j.start ∨ i.start = j.start ∧ d.dayNumber ≤ d'.dayNumber

theorem Precedes.start_le (h : Precedes d i d' j) : i.start ≤ j.start := by
  cases h with
  | inl hlt => exact Int.le_of_lt hlt
  | inr heq => exact heq.1 ▸ Int.le_refl _

theorem Precedes.antisymm (h : Precedes d i d' j) (h' : Precedes d' j d i) :
    i.start = j.start ∧ d = d' := by
  rcases h with hlt | ⟨heq, hd⟩ <;> rcases h' with hlt' | ⟨heq', hd'⟩
  case inl.inl => exact absurd (Int.lt_trans hlt hlt') (Int.lt_irrefl _)
  case inl.inr => exact absurd (heq' ▸ hlt) (Int.lt_irrefl _)
  case inr.inl => exact absurd (heq ▸ hlt') (Int.lt_irrefl _)
  case inr.inr =>
    exact ⟨heq, Date.eq_iff.mpr (Int.le_antisymm hd hd')⟩

theorem precedes_of_byStart {dates : List Date} {f : Date → List Interval} {rest : List Interval}
    (hd : dates.Pairwise fun a b => a.dayNumber < b.dayNumber)
    (h : byStart (dates.flatMap f) = i :: rest) :
    ∃ d ∈ dates, i ∈ f d ∧ ∀ d' ∈ dates, ∀ j ∈ f d', Precedes d i d' j := by
  have ⟨before, after, hs, hbefore, hafter⟩ := byStart_first h
  obtain ⟨earlier, d, later, rfl, hi, he⟩ := flatMap_split hs
  refine ⟨d, by simp, hi, fun d' hd' j hj => ?_⟩
  by_cases hj' : j ∈ before
  case pos => exact .inl (hbefore j hj')
  case neg =>
    have hd' : d.dayNumber ≤ d'.dayNumber := by
      rcases List.mem_append.mp hd' with hd' | hd'
      case inl => exact absurd (he d' hd' j hj) hj'
      case inr =>
        cases hd' with
        | head => exact Int.le_refl _
        | tail _ hd' =>
          have hp := (List.pairwise_append.mp hd).2.1
          exact Int.le_of_lt ((List.pairwise_cons.mp hp).1 d' hd')
    have hle : i.start ≤ j.start := by
      have hmem : j ∈ before ++ i :: after := hs ▸ List.mem_flatMap.mpr ⟨d', ‹_›, hj⟩
      cases (List.mem_append.mp hmem).resolve_left hj' with
      | head => exact Int.le_refl _
      | tail _ hj => exact hafter j hj
    by_cases hge : j.start ≤ i.start
    case pos => exact .inr ⟨Timestamp.le_antisymm hle hge, hd'⟩
    case neg => exact .inl (Timestamp.not_le.mp hge)

-- What the intervals of all dates ask for.
inductive Asks (s : Schedule) (t : Timestamp) : Resolved → Prop
  | unlocked {d : Date} {i : Interval} (hi : i ∈ s.hoursOn d) (hc : i.Covers t)
      (hf : ∀ d' j, j ∈ s.hoursOn d' → j.Covers t → Precedes d i d' j) :
      Asks s t ⟨.unlocked, some i.stop⟩
  | lockedUntil {d : Date} {i : Interval} (hn : ∀ d j, j ∈ s.hoursOn d → ¬j.Covers t)
      (hi : i ∈ s.hoursOn d) (hs : t < i.start) (he : i.start < s.endOfDay t)
      (hf : ∀ d' j, j ∈ s.hoursOn d' → t < j.start → i.start ≤ j.start) :
      Asks s t ⟨.locked, some i.start⟩
  | locked (hn : ∀ d j, j ∈ s.hoursOn d → ¬j.Covers t)
      (he : ∀ d j, j ∈ s.hoursOn d → t < j.start → s.endOfDay t ≤ j.start) :
      Asks s t ⟨.locked, none⟩

section

variable (hz : s.zone.Constant offset) (hw : s.rules.WithinDay)

include hz hw

theorem placed (hj : j ∈ s.hoursOn d) : OpeningHour.Placed s.zone d j := by
  obtain ⟨h, hh, rfl⟩ := List.mem_map.mp hj
  have ⟨ho, hc⟩ := hw h (mentions_of_mem_layerFor hh)
  exact OpeningHour.placed_on hz ho hc

theorem le_dayNumber_of_le_stop (hj : j ∈ s.hoursOn d) (ht : t ≤ j.stop) :
    (s.zone.dateAt t).dayNumber ≤ d.dayNumber + 1 := by
  have hp := placed hz hw hj
  have hm := (Zone.midnight_dateAt hz t).1
  by_cases h : (s.zone.dateAt t).dayNumber ≤ d.dayNumber + 1
  case pos => exact h
  case neg =>
    have hd := Zone.midnight_mono hz d.next.next (s.zone.dateAt t)
      (by simp only [Date.next, Date.addDays]; omega)
    have hlt := hp.stop_lt
    simp only [Timestamp.le_def, Timestamp.lt_def] at *
    omega

theorem endOfDay_le_start (hj : j ∈ s.hoursOn d)
    (hd : (s.zone.dateAt t).dayNumber + 1 < d.dayNumber) : s.endOfDay t ≤ j.start := by
  have hm := Zone.midnight_mono hz (s.zone.dateAt t).next d.previous
    (by simp only [Date.next, Date.previous, Date.addDays]; omega)
  exact Timestamp.le_trans hm (placed hz hw hj).start_ge

theorem dayNumber_le_of_start_le (hj : j ∈ s.hoursOn d) (ht : j.start ≤ t) :
    d.dayNumber ≤ (s.zone.dateAt t).dayNumber + 1 := by
  by_cases h : d.dayNumber ≤ (s.zone.dateAt t).dayNumber + 1
  case pos => exact h
  case neg =>
    have he := endOfDay_le_start hz hw (t := t) hj (by omega)
    have hm := (Zone.midnight_dateAt hz t).2
    unfold endOfDay at he
    simp only [Timestamp.le_def, Timestamp.lt_def] at *
    omega

theorem le_stop_of_lt_start (hj : j ∈ s.hoursOn d) (ht : t < j.start) : t ≤ j.stop :=
  Int.le_of_lt (Int.lt_trans ht (placed hz hw hj).start_lt_stop)

-- What is left of yesterday starts before anything of tomorrow.
theorem start_lt_of_dates (hi : i ∈ s.hoursOn d) (hj : j ∈ s.hoursOn d')
    (hd : d.dayNumber + 2 ≤ d'.dayNumber) : i.start < j.start := by
  have hlt := (placed hz hw hi).start_lt
  have hge := (placed hz hw hj).start_ge
  have hm := Zone.midnight_mono hz d.next d'.previous
    (by simp only [Date.next, Date.previous, Date.addDays]; omega)
  simp only [Timestamp.le_def, Timestamp.lt_def] at *
  omega

end

theorem mem_openHoursOn : i ∈ s.openHoursOn t d ↔ i ∈ s.hoursOn d ∧ t ≤ i.stop := by
  simp [openHoursOn]

theorem hoursOn_of_isEmpty (h : s.rules.isEmpty) : i ∉ s.hoursOn d := by
  intro hi
  obtain ⟨_, hm, -⟩ := List.mem_map.mp hi
  exact RuleSet.not_mentions_of_isEmpty h (mentions_of_mem_layerFor hm)

-- The dates that are looked at.
def window (s : Schedule) (t : Timestamp) : List Date :=
  let yesterday := (s.zone.dateAt t).previous
  if s.openHoursOn t yesterday = [] then [yesterday, yesterday.next, yesterday.next.next]
  else [yesterday, yesterday.next]

theorem mem_window : d ∈ s.window t ↔ (s.zone.dateAt t).dayNumber ≤ d.dayNumber + 1 ∧
    (d.dayNumber ≤ (s.zone.dateAt t).dayNumber ∨
      s.openHoursOn t (s.zone.dateAt t).previous = [] ∧
        d.dayNumber ≤ (s.zone.dateAt t).dayNumber + 1) := by
  simp only [window]
  generalize s.openHoursOn t (s.zone.dateAt t).previous = left
  by_cases hn : left = []
  case pos =>
    simp only [hn, if_true, List.mem_cons, List.not_mem_nil, Date.eq_iff, Date.next, Date.previous,
      Date.addDays, true_and, or_false]
    omega
  case neg =>
    simp only [hn, if_false, List.mem_cons, List.not_mem_nil, Date.eq_iff, Date.next,
      Date.previous, Date.addDays, false_and, or_false]
    omega

theorem yesterday_mem_window : (s.zone.dateAt t).previous ∈ s.window t :=
  mem_window.mpr (by simp only [Date.previous, Date.addDays]; omega)

theorem pairwise_window : (s.window t).Pairwise fun a b => a.dayNumber < b.dayNumber := by
  have hlt : ∀ d : Date, d.dayNumber < d.next.dayNumber := fun d => Int.lt_succ d.dayNumber
  simp only [window]
  split
  case isTrue =>
    refine .cons (fun d hd => ?_) (.cons (fun d hd => ?_) (.cons nofun .nil))
    case refine_1 =>
      rcases List.mem_cons.mp hd with rfl | hd
      case inl => exact hlt _
      case inr => cases List.mem_singleton.mp hd; exact Int.lt_trans (hlt _) (hlt _)
    case refine_2 => cases List.mem_singleton.mp hd; exact hlt _
  case isFalse =>
    refine .cons (fun d hd => ?_) (.cons nofun .nil)
    cases List.mem_singleton.mp hd
    exact hlt _

theorem intervalsFrom_window (h : ¬s.rules.isEmpty) : s.intervalsFrom t 1 3 =
    (byStart ((s.window t).flatMap (s.openHoursOn t))).take 1 := by
  rw [intervalsFrom, if_neg (by simpa using h), gather_three]
  rfl

theorem openHoursOn_of_intervalsFrom_nil (h : s.intervalsFrom t 1 3 = []) (hd : d ∈ s.window t) :
    s.openHoursOn t d = [] := by
  refine List.eq_nil_iff_forall_not_mem.mpr fun i hi => ?_
  have he : ¬s.rules.isEmpty := fun he => hoursOn_of_isEmpty he (mem_openHoursOn.mp hi).1
  rw [intervalsFrom_window he] at h
  have hb := (List.take_eq_nil_iff.mp h).resolve_left (by decide)
  have hmem := mem_byStart.mpr (List.mem_flatMap.mpr ⟨d, hd, hi⟩)
  rw [hb] at hmem
  cases hmem

-- The interval found comes before every other one that is looked at.
theorem intervalsFrom_first {rest : List Interval} (h : s.intervalsFrom t 1 3 = i :: rest) :
    ∃ d ∈ s.window t, i ∈ s.openHoursOn t d ∧
      ∀ d' ∈ s.window t, ∀ j ∈ s.openHoursOn t d', Precedes d i d' j := by
  have he : ¬s.rules.isEmpty := fun he => by simp [intervalsFrom, he] at h
  rw [intervalsFrom_window he] at h
  cases hb : byStart ((s.window t).flatMap (s.openHoursOn t)) <;> rw [hb] at h <;> cases h
  exact precedes_of_byStart pairwise_window hb

section

variable (hz : s.zone.Constant offset) (hw : s.rules.WithinDay)

include hz hw

theorem intervalsFrom_nil (h : s.intervalsFrom t 1 3 = []) (hj : j ∈ s.hoursOn d)
    (ht : t ≤ j.stop) : (s.zone.dateAt t).dayNumber + 1 < d.dayNumber := by
  have hy := openHoursOn_of_intervalsFrom_nil h yesterday_mem_window
  have hd := le_dayNumber_of_le_stop hz hw hj ht
  by_cases hd' : d.dayNumber ≤ (s.zone.dateAt t).dayNumber + 1
  case pos =>
    have hj : j ∈ s.openHoursOn t d := mem_openHoursOn.mpr ⟨hj, ht⟩
    rw [openHoursOn_of_intervalsFrom_nil h (mem_window.mpr ⟨hd, .inr ⟨hy, hd'⟩⟩)] at hj
    cases hj
  case neg => omega

-- The interval found comes before every other one up to tomorrow.
theorem intervalsFrom_cons {rest : List Interval} (h : s.intervalsFrom t 1 3 = i :: rest) :
    ∃ d, i ∈ s.hoursOn d ∧ t ≤ i.stop ∧
      ∀ d' j, j ∈ s.hoursOn d' → t ≤ j.stop → d'.dayNumber ≤ (s.zone.dateAt t).dayNumber + 1 →
        Precedes d i d' j := by
  obtain ⟨d, -, hi, hf⟩ := intervalsFrom_first h
  have ⟨hi, hs⟩ := mem_openHoursOn.mp hi
  refine ⟨d, hi, hs, fun d' j hj ht hd' => ?_⟩
  have hd := le_dayNumber_of_le_stop hz hw hj ht
  by_cases hm : d' ∈ s.window t
  case pos => exact hf d' hm j (mem_openHoursOn.mpr ⟨hj, ht⟩)
  case neg =>
    -- Tomorrow is left out, so there is something left of yesterday.
    rw [mem_window, not_and] at hm
    have ⟨hlt, hy⟩ := not_or.mp (hm hd)
    have ⟨y, hy⟩ := List.exists_mem_of_ne_nil _ fun hn => hy ⟨hn, hd'⟩
    have hiy := hf _ yesterday_mem_window y hy
    have hyj := start_lt_of_dates hz hw (mem_openHoursOn.mp hy).1 hj (by
      simp only [Date.previous, Date.addDays]
      omega)
    left
    rcases hiy with hiy | ⟨hiy, -⟩
    case inl =>
      simp only [Timestamp.lt_def] at *
      omega
    case inr => rwa [hiy]

-- Nothing covers `t`, and no interval that is not over by then starts before `i`.
theorem asks_of_ahead (ht : t < i.start) (hi : i ∈ s.hoursOn d)
    (hle : ∀ d' j, j ∈ s.hoursOn d' → t ≤ j.stop →
      d'.dayNumber ≤ (s.zone.dateAt t).dayNumber + 1 → i.start ≤ j.start) :
    s.Asks t (if s.endOfDay t ≤ i.start then .lockedIndefinitely
      else ⟨.locked, some i.start⟩) := by
  have hn : ∀ d j, j ∈ s.hoursOn d → ¬j.Covers t := fun d' j hj hc => by
    have hij := hle d' j hj hc.2 (dayNumber_le_of_start_le hz hw hj hc.1)
    exact Timestamp.not_lt.mpr (Timestamp.le_trans hij hc.1) ht
  -- Whatever starts later than tomorrow does so after the end of this day.
  have hahead : ∀ d' j, j ∈ s.hoursOn d' → t < j.start →
      i.start ≤ j.start ∨ s.endOfDay t ≤ j.start := fun d' j hj htj => by
    by_cases hd : d'.dayNumber ≤ (s.zone.dateAt t).dayNumber + 1
    case pos => exact .inl (hle d' j hj (le_stop_of_lt_start hz hw hj htj) hd)
    case neg => exact .inr (endOfDay_le_start hz hw hj (by omega))
  split
  case isTrue he =>
    refine .locked hn fun d' j hj htj => ?_
    cases hahead d' j hj htj with
    | inl hij => exact Timestamp.le_trans he hij
    | inr hej => exact hej
  case isFalse he =>
    have he := Timestamp.not_le.mp he
    refine .lockedUntil hn hi ht he fun d' j hj htj => ?_
    cases hahead d' j hj htj with
    | inl hij => exact hij
    | inr hej => exact Int.le_of_lt (Int.lt_of_lt_of_le he hej)

theorem asks_stateAt : s.Asks t (s.stateAt t) := by
  unfold stateAt
  split
  case h_1 h =>
    refine .locked (fun d j hj hc => ?_) (fun d j hj ht => ?_)
    case refine_1 =>
      have hd := intervalsFrom_nil hz hw h hj hc.2
      have hd' := dayNumber_le_of_start_le hz hw hj hc.1
      omega
    case refine_2 =>
      have hd := intervalsFrom_nil hz hw h hj (le_stop_of_lt_start hz hw hj ht)
      exact endOfDay_le_start hz hw hj hd
  case h_2 i rest h =>
    have ⟨d, hi, hs, hf⟩ := intervalsFrom_cons hz hw h
    split
    case isTrue hc =>
      refine .unlocked hi hc fun d' j hj hcj => ?_
      exact hf d' j hj hcj.2 (dayNumber_le_of_start_le hz hw hj hcj.1)
    case isFalse hc =>
      have ht : t < i.start := Timestamp.not_le.mp fun h => hc ⟨h, hs⟩
      exact asks_of_ahead hz hw ht hi fun d' j hj htj hd => (hf d' j hj htj hd).start_le

end

theorem Asks.unique {r r' : Resolved} (hz : s.zone.Constant offset) (ha : s.rules.Apart)
    (h : s.Asks t r) (h' : s.Asks t r') : r = r' := by
  cases h
  case unlocked d i hi hc hf =>
    cases h'
    case unlocked d' j hj hcj hfj =>
      obtain ⟨hij, rfl⟩ := (hf d' j hj hcj).antisymm (hfj d i hi hc)
      rw [eq_of_start_eq hz ha hi hj hij]
    case lockedUntil hn _ _ _ _ => exact absurd hc (hn _ _ hi)
    case locked hn _ => exact absurd hc (hn _ _ hi)
  case lockedUntil d i hn hi hs he hf =>
    cases h'
    case unlocked hj hc _ => exact absurd hc (hn _ _ hj)
    case lockedUntil d' j _ hj hsj _ hfj =>
      rw [Timestamp.le_antisymm (hf d' j hj hsj) (hfj d i hi hs)]
    case locked hl => exact absurd (hl _ _ hi hs) (Timestamp.not_le.mpr he)
  case locked hn hl =>
    cases h'
    case unlocked hj hc _ => exact absurd hc (hn _ _ hj)
    case lockedUntil hj hsj he _ => exact absurd (hl _ _ hj hsj) (Timestamp.not_le.mpr he)
    case locked => rfl

-- Three days are enough to know what the intervals of all dates ask for.
theorem asks_iff {b : RuleSetBuilder} {r : Resolved} (hb : b.build = .ok s.rules)
    (hw : s.rules.WithinDay) (hz : s.zone.Constant offset) :
    s.Asks t r ↔ r = s.stateAt t := by
  have ha := RuleSet.apart_of_build hb
  refine ⟨fun h => h.unique hz ha (asks_stateAt hz hw), ?_⟩
  rintro rfl
  exact asks_stateAt hz hw

section

variable {u e : Timestamp} {r r' : Resolved}

-- What nothing covers at `t` is covered only by what starts in between.
theorem not_covers_of_le (hn : ∀ d j, j ∈ s.hoursOn d → ¬j.Covers t) (hle : t ≤ u)
    (hs : ∀ d j, j ∈ s.hoursOn d → t < j.start → u < j.start) :
    ∀ d j, j ∈ s.hoursOn d → ¬j.Covers u := by
  intro d j hj hc
  by_cases ht : t < j.start
  case pos => exact Timestamp.not_lt.mpr hc.1 (hs d j hj ht)
  case neg => exact hn d j hj ⟨Timestamp.not_lt.mp ht, Timestamp.le_trans hle hc.2⟩

theorem Asks.state_of_not_covers (h : s.Asks t r) (hn : ∀ d j, j ∈ s.hoursOn d → ¬j.Covers t) :
    r.state = .locked := by
  cases h
  case unlocked hi hc _ => exact absurd hc (hn _ _ hi)
  all_goals rfl

theorem Asks.state_of_covers {d : Date} {i : Interval} (h : s.Asks t r) (hi : i ∈ s.hoursOn d)
    (hc : i.Covers t) : r.state = .unlocked := by
  cases h
  case unlocked => rfl
  case lockedUntil hn _ _ _ _ => exact absurd hc (hn _ _ hi)
  case locked hn _ => exact absurd hc (hn _ _ hi)

theorem Asks.state_of_lt (h : s.Asks t r) (h' : s.Asks u r') (hle : t ≤ u)
    (he : r.validUntil = some e) (hlt : u < e) : r'.state = r.state := by
  cases h
  case unlocked hi hc _ =>
    cases he
    exact h'.state_of_covers hi ⟨Timestamp.le_trans hc.1 hle, Timestamp.le_of_lt hlt⟩
  case lockedUntil hn _ _ _ hf =>
    cases he
    refine h'.state_of_not_covers (not_covers_of_le hn hle fun d j hj ht => ?_)
    exact Int.lt_of_lt_of_le hlt (hf d j hj ht)
  case locked => cases he

-- With no known end, the state is that of the whole day.
theorem Asks.state_of_lt_endOfDay (h : s.Asks t r) (h' : s.Asks u r') (hle : t ≤ u)
    (he : r.validUntil = none) (hlt : u < s.endOfDay t) : r'.state = r.state := by
  cases h
  case locked hn hl =>
    refine h'.state_of_not_covers (not_covers_of_le hn hle fun d j hj ht => ?_)
    exact Int.lt_of_lt_of_le hlt (hl d j hj ht)
  all_goals cases he

end

-- Mondays have an hour in the evening, after which the door stays open until an hour past midnight.
def lateHour : OpeningHour where
  range := ⟨⟨22, 30, by decide, by decide⟩, ⟨23, 30, by decide, by decide⟩, by decide⟩
  closeAfter := .ofSeconds 5400

def lateMondays : Schedule where
  rules := (RuleSetBuilder.empty.addRegular .monday lateHour).sortedRules
  zone := ⟨"UTC", 0, []⟩
  country := ""
  holidays := .none

theorem lateMondays_constant : lateMondays.zone.Constant 0 :=
  fun _ => rfl

theorem build_lateMondays : (RuleSetBuilder.empty.addRegular .monday lateHour).build =
    .ok lateMondays.rules := by
  have hnil : ∀ layer, RuleSetBuilder.checkLayer layer [] = .ok () := by
    simp [RuleSetBuilder.checkLayer, RuleSetBuilder.sorted, RuleSetBuilder.firstOverlap]
  refine RuleSetBuilder.build_eq_ok.mpr
    ⟨RuleSetBuilder.check_eq_ok.mpr ⟨fun w => ?_, fun _ => hnil _, hnil _⟩, rfl⟩
  simp only [RuleSetBuilder.addRegular, RuleSetBuilder.empty]
  split
  case isTrue => simp [RuleSetBuilder.checkLayer, RuleSetBuilder.sorted, RuleSetBuilder.firstOverlap]
  case isFalse => exact hnil _

theorem withinDay_lateMondays : lateMondays.rules.WithinDay := by
  intro h hm
  have hm : h = lateHour := by
    cases hm
    case regular hm =>
      simp only [lateMondays, RuleSetBuilder.sortedRules, RuleSetBuilder.addRegular,
        RuleSetBuilder.empty, RuleSetBuilder.sorted] at hm
      split at hm <;> simp at hm
      exact hm
    case dated hd _ =>
      simp [lateMondays, RuleSetBuilder.sortedRules, RuleSetBuilder.addRegular,
        RuleSetBuilder.empty] at hd
    case holiday hm =>
      simp [lateMondays, RuleSetBuilder.sortedRules, RuleSetBuilder.addRegular,
        RuleSetBuilder.empty, RuleSetBuilder.sorted] at hm
  subst hm
  decide

theorem hoursOn_lateMondays : lateMondays.hoursOn d =
    if d.weekday = .monday then [lateHour.on d lateMondays.zone] else [] := by
  simp only [hoursOn, layerFor, lateMondays, RuleSetBuilder.sortedRules, RuleSetBuilder.addRegular,
    RuleSetBuilder.empty, RuleSetBuilder.sorted, HolidayProvider.none, Option.map_none]
  split <;> simp

-- On a Tuesday, half an hour after midnight.
theorem asks_iff_lateMondays : lateMondays.stateAt (.ofSeconds (5 * 86400 + 1800)) =
    ⟨.unlocked, some (.ofSeconds (5 * 86400 + 3600))⟩ := by
  have hi : lateHour.on ⟨4⟩ lateMondays.zone ∈ lateMondays.hoursOn ⟨4⟩ := by
    rw [hoursOn_lateMondays, if_pos (by decide)]
    exact List.mem_cons_self
  have hc : (lateHour.on ⟨4⟩ lateMondays.zone).Covers (.ofSeconds (5 * 86400 + 1800)) := by decide
  have hs : (lateHour.on ⟨4⟩ lateMondays.zone).stop = .ofSeconds (5 * 86400 + 3600) := by decide
  rw [← hs]
  refine ((asks_iff build_lateMondays withinDay_lateMondays lateMondays_constant).mp
    (.unlocked hi hc fun d j hj hcj => ?_)).symm
  rw [hoursOn_lateMondays] at hj
  split at hj <;> cases hj
  case isTrue.head =>
    simp only [Interval.Covers, OpeningHour.on_start lateMondays_constant,
      OpeningHour.on_stop lateMondays_constant, Timestamp.ofSeconds_eq_ofNanos,
      Timestamp.ofNanos_le_ofNanos, lateHour, DayTime.minutes, Duration.ofSeconds,
      Duration.zero] at hcj
    have hd : d = ⟨4⟩ := Date.eq_iff.mpr (by dsimp only at hcj ⊢; omega)
    subst hd
    exact .inr ⟨rfl, Int.le_refl _⟩
  case isTrue.tail h => cases h

end Schedule

end EntryDoor
