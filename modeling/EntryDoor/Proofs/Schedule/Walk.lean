import EntryDoor.Proofs.Schedule.Window

namespace EntryDoor

namespace Date

variable {d d' : Date} {n : Nat}

-- The dates of `n` days, of which `d` is the first.
def following (d : Date) : Nat → List Date
  | 0 => []
  | n + 1 => d :: d.next.following n

theorem mem_following : d' ∈ d.following n ↔
    d.dayNumber ≤ d'.dayNumber ∧ d'.dayNumber < d.dayNumber + n := by
  induction n generalizing d with
  | zero =>
    simp only [following, List.not_mem_nil, false_iff]
    omega
  | succ n ih =>
    simp only [following, List.mem_cons, ih, eq_iff, next, addDays]
    omega

theorem following_add (m n : Nat) :
    d.following (m + n) = d.following m ++ (d.addDays m).following n := by
  induction m generalizing d with
  | zero => simp [following, addDays]
  | succ m ih =>
    have hd : d.next.addDays m = d.addDays (m + 1 : Nat) := by
      simp only [next, addDays, eq_iff]
      omega
    rw [Nat.add_right_comm, following, ih, hd]
    rfl

end Date

namespace Schedule

variable {s : Schedule} {t : Timestamp} {d d' : Date} {i j : Interval} {n : Nat} {offset : Int}
  {intervals later : List Interval}

theorem filter_of_start_lt {l : List Interval} (h : ∀ j ∈ l, j.start < i.start) :
    l.filter (·.start < i.start) = l ∧ l.filter (i.start ≤ ·.start) = [] :=
  ⟨List.filter_eq_self.mpr (by simpa using h), List.filter_eq_nil_iff.mpr (by simpa using h)⟩

theorem filter_of_le_start {l : List Interval} (h : ∀ j ∈ l, i.start ≤ j.start) :
    l.filter (·.start < i.start) = [] ∧ l.filter (i.start ≤ ·.start) = l :=
  ⟨List.filter_eq_nil_iff.mpr (by simpa using h), List.filter_eq_self.mpr (by simpa using h)⟩

-- An interval goes behind those that start before it, and in front of the others.
theorem byStart_cons : byStart (i :: intervals) =
    (byStart intervals).filter (·.start < i.start) ++
      i :: (byStart intervals).filter (i.start ≤ ·.start) := by
  have ⟨front, back, hi, h, hfront⟩ := List.mergeSort_cons start_trans start_total i intervals
  have hp := List.pairwise_mergeSort start_trans start_total (i :: intervals)
  rw [hi] at hp
  have hback := (List.pairwise_cons.mp (List.pairwise_append.mp hp).2.1).1
  have ⟨hf, hf'⟩ := filter_of_start_lt (i := i) (l := front) (by simpa using hfront)
  have ⟨hb, hb'⟩ := filter_of_le_start (i := i) (l := back) (by simpa using hback)
  unfold byStart
  rw [hi, h, List.filter_append, List.filter_append, hf, hf', hb, hb', List.append_nil,
    List.nil_append]

-- Intervals that start before all others come first, in the order that they have among themselves.
theorem byStart_eq_append {first : Interval → Bool}
    (h : ∀ i ∈ intervals, ∀ j ∈ intervals, first i → ¬first j → i.start < j.start) :
    byStart intervals = byStart (intervals.filter first) ++
      byStart (intervals.filter (!first ·)) := by
  induction intervals with
  | nil => simp [byStart]
  | cons i intervals ih =>
    have ih := ih fun i hi j hj => h i (.tail _ hi) j (.tail _ hj)
    rw [byStart_cons, ih, List.filter_append, List.filter_append]
    by_cases hf : first i
    case pos =>
      have ⟨hn, ha⟩ := filter_of_le_start (i := i) (l := byStart (intervals.filter (!first ·)))
        fun j hj => by
          have hj := List.mem_filter.mp (mem_byStart.mp hj)
          exact Timestamp.le_of_lt (h i List.mem_cons_self j (.tail _ hj.1) hf (by simpa using hj.2))
      rw [hn, ha, List.filter_cons_of_pos hf, List.filter_cons_of_neg (by simpa using hf),
        byStart_cons, List.append_nil, List.append_assoc, List.cons_append]
    case neg =>
      have ⟨ha, hn⟩ := filter_of_start_lt (i := i) (l := byStart (intervals.filter first))
        fun j hj => by
          have hj := List.mem_filter.mp (mem_byStart.mp hj)
          exact h j (.tail _ hj.1) i List.mem_cons_self hj.2 hf
      rw [hn, ha, List.filter_cons_of_neg hf, List.filter_cons_of_pos (by simpa using hf),
        byStart_cons, List.nil_append, List.append_assoc]

-- Later intervals do not matter for the first `n`, if so many start before all of them.
theorem take_byStart_append
    (h : n ≤ (intervals.filter fun i => later.all (i.start < ·.start)).length) :
    (byStart (intervals ++ later)).take n = (byStart intervals).take n := by
  have hlt : ∀ i j : Interval, later.all (i.start < ·.start) → ¬later.all (j.start < ·.start) →
      i.start < j.start := by
    intro i j hi hj
    have ⟨k, hk, hkj⟩ := List.all_eq_false.mp (Bool.not_eq_true _ ▸ hj)
    have hik : i.start < k.start := by simpa using List.all_eq_true.mp hi k hk
    have hkj : k.start ≤ j.start := by simpa using hkj
    exact Int.lt_of_lt_of_le hik hkj
  have hnil : (later.filter fun i => later.all (i.start < ·.start)) = [] := by
    refine List.filter_eq_nil_iff.mpr fun i hi hall => ?_
    have := List.all_eq_true.mp hall i hi
    exact Timestamp.lt_irrefl i.start (by simpa using this)
  have hlen : n ≤ (byStart (intervals.filter fun i => later.all (i.start < ·.start))).length := by
    rwa [byStart, List.length_mergeSort]
  have hall := @byStart_eq_append (intervals ++ later) _ fun i _ j _ => hlt i j
  have hsome := @byStart_eq_append intervals _ fun i _ j _ => hlt i j
  rw [hall, hsome, List.filter_append, hnil, List.append_nil,
    List.take_append_of_le_length hlen, List.take_append_of_le_length hlen]

-- By induction on the days that are left. The walk stops early only if there were enough intervals before
-- the last days that it has looked at.
theorem gather_eq {count days slack : Nat} {found : List Interval} : ∃ k ≤ days,
    s.gather t count days d slack found =
      found ++ (d.following k).flatMap (s.openHoursOn t) ∧
    (k < days → slack < k ∧
      count ≤ (found ++ (d.following (k - slack)).flatMap (s.openHoursOn t)).length) := by
  induction days generalizing d slack found with
  | zero => exact ⟨0, Nat.le_refl 0, by simp [gather, Date.following], nofun⟩
  | succ days ih =>
    unfold gather
    dsimp only
    have hd : ∀ k, found ++ (d.following (k + 1)).flatMap (s.openHoursOn t) =
        found ++ s.openHoursOn t d ++ (d.next.following k).flatMap (s.openHoursOn t) := by
      simp [Date.following]
    split
    case isTrue hc =>
      cases slack with
      | zero =>
        have h : found ++ s.openHoursOn t d =
            found ++ (d.following 1).flatMap (s.openHoursOn t) := by simp [Date.following]
        exact ⟨1, by omega, h, fun _ => ⟨by omega, h ▸ hc⟩⟩
      | succ slack =>
        obtain ⟨k, hk, hg, hs⟩ := @ih d.next slack (found ++ s.openHoursOn t d)
        refine ⟨k + 1, by omega, hg.trans (hd k).symm, fun hlt => ?_⟩
        obtain ⟨hlt, _⟩ := hs (by omega)
        have hks : k + 1 - (slack + 1) = k - slack - 1 + 1 := by omega
        refine ⟨by omega, ?_⟩
        rw [hks, hd, List.length_append]
        omega
    case isFalse =>
      obtain ⟨k, hk, hg, hs⟩ := @ih d.next slack (found ++ s.openHoursOn t d)
      refine ⟨k + 1, by omega, by rw [hg, hd], fun hlt => ?_⟩
      obtain ⟨hlt, hc⟩ := hs (by omega)
      have hks : k + 1 - slack = k - slack + 1 := by omega
      refine ⟨by omega, ?_⟩
      rwa [hks, hd]

-- The intervals that have not ended before `t` of the dates that are looked at, in order.
def scan (s : Schedule) (t : Timestamp) (days : Nat) : List Interval :=
  byStart ((((s.zone.dateAt t).previous.following days).flatMap s.hoursOn).filter fun i => t ≤ i.stop)

theorem scan_eq {days : Nat} : s.scan t days =
    byStart (((s.zone.dateAt t).previous.following days).flatMap (s.openHoursOn t)) := by
  rw [scan, List.filter_flatMap]
  rfl

section

variable (hz : s.zone.Constant offset) (hw : s.rules.WithinDay)

include hz hw

-- If the first `k` days have enough intervals, one more day is enough: all later ones start two days
-- after those `k`, at least.
theorem take_byStart_following {k m : Nat}
    (h : n ≤ ((d.following k).flatMap (s.openHoursOn t)).length) :
    (byStart ((d.following (k + 1 + m)).flatMap (s.openHoursOn t))).take n =
      (byStart ((d.following (k + 1)).flatMap (s.openHoursOn t))).take n := by
  rw [Date.following_add (k + 1) m, List.flatMap_append, take_byStart_append]
  have hfirst : ∀ i ∈ (d.following k).flatMap (s.openHoursOn t),
      (((d.addDays (k + 1 : Nat)).following m).flatMap (s.openHoursOn t)).all
        (i.start < ·.start) := by
    intro i hi
    refine List.all_eq_true.mpr fun j hj => decide_eq_true ?_
    obtain ⟨e, he, hi⟩ := List.mem_flatMap.mp hi
    obtain ⟨e', he', hj⟩ := List.mem_flatMap.mp hj
    have he := Date.mem_following.mp he
    have he' := Date.mem_following.mp he'
    refine start_lt_of_dates hz hw (mem_openHoursOn.mp hi).1 (mem_openHoursOn.mp hj).1 ?_
    simp only [Date.addDays] at he'
    omega
  rw [Date.following_add k 1, List.flatMap_append, List.filter_append,
    List.filter_eq_self.mpr hfirst, List.length_append]
  omega

theorem intervalsFrom_eq_take_scan {days : Nat} :
    s.intervalsFrom t n days = (s.scan t days).take n := by
  rw [intervalsFrom, scan_eq]
  split
  case isTrue h =>
    cases h with
    | inl hn => rw [hn, List.take_zero]
    | inr he =>
      have hnil : ((s.zone.dateAt t).previous.following days).flatMap (s.openHoursOn t) = [] :=
        List.flatMap_eq_nil_iff.mpr fun d _ => List.eq_nil_iff_forall_not_mem.mpr fun i hi =>
          hoursOn_of_isEmpty he (mem_openHoursOn.mp hi).1
      simp [hnil, byStart]
  case isFalse =>
    obtain ⟨k, hk, hg, hs⟩ := @gather_eq s t (s.zone.dateAt t).previous n days 1 []
    rw [hg, List.nil_append]
    by_cases hkd : k = days
    case pos => rw [hkd]
    case neg =>
      obtain ⟨hlt, hc⟩ := hs (by omega)
      have hlast : k = k - 1 + 1 := by omega
      have hdays : days = k - 1 + 1 + (days - k) := by omega
      rw [hdays, take_byStart_following hz hw hc, ← hlast]

end

theorem start_le_of_mem_take (hi : i ∈ intervals) (hn : i ∉ (byStart intervals).take n) :
    ((byStart intervals).take n).length = n ∧
      ∀ j ∈ (byStart intervals).take n, j.start ≤ i.start := by
  have hd : i ∈ (byStart intervals).drop n := by
    have hi := mem_byStart.mpr hi
    rw [← List.take_append_drop n (byStart intervals)] at hi
    exact (List.mem_append.mp hi).resolve_left hn
  have hlen : n < (byStart intervals).length :=
    Nat.lt_of_not_le fun hle => by simp [List.drop_eq_nil_of_le hle] at hd
  refine ⟨List.length_take_of_le (Nat.le_of_lt hlen), fun j hj => ?_⟩
  have hp : (byStart intervals).Pairwise fun a b => decide (a.start ≤ b.start) :=
    List.pairwise_mergeSort start_trans start_total intervals
  rw [← List.take_append_drop n (byStart intervals)] at hp
  simpa using (List.pairwise_append.mp hp).2.2 j hj i hd

-- The intervals found are the first `n` of those that the dates looked at have left at `t`.
structure FindsFirst (s : Schedule) (t : Timestamp) (n days : Nat) (found : List Interval) : Prop where
  eq_take : found = (s.scan t days).take n
  -- An interval that is not found does not start before those that are.
  start_le : ∀ d ∈ (s.zone.dateAt t).previous.following days, ∀ i ∈ s.hoursOn d, t ≤ i.stop →
    i ∉ found → found.length = n ∧ ∀ j ∈ found, j.start ≤ i.start
  -- No interval of an earlier date is left.
  stop_lt : ∀ d, d.dayNumber < (s.zone.dateAt t).previous.dayNumber → ∀ i ∈ s.hoursOn d, i.stop < t
  -- From the second date on after those looked at, all intervals start later.
  start_lt : ∀ d, (s.zone.dateAt t).previous.dayNumber + days < d.dayNumber → ∀ i ∈ s.hoursOn d,
    ∀ j ∈ found, j.start < i.start

theorem findsFirst_upcoming (hw : s.rules.WithinDay) (hz : s.zone.Constant offset) :
    s.FindsFirst t n 400 (s.upcoming t n) := by
  have htake : s.upcoming t n = (s.scan t 400).take n := intervalsFrom_eq_take_scan hz hw
  refine ⟨htake, fun d hd i hi hs hn => ?_, fun d hd i hi => ?_, fun d hd i hi j hj => ?_⟩
  case refine_1 =>
    rw [htake, scan_eq] at hn ⊢
    exact start_le_of_mem_take (List.mem_flatMap.mpr ⟨d, hd, mem_openHoursOn.mpr ⟨hi, hs⟩⟩) hn
  case refine_2 =>
    refine Timestamp.not_le.mp fun hle => ?_
    have hle := le_dayNumber_of_le_stop hz hw hi hle
    simp only [Date.previous, Date.addDays] at hd
    omega
  case refine_3 =>
    rw [htake, scan_eq] at hj
    obtain ⟨e, he, hj⟩ := List.mem_flatMap.mp (mem_byStart.mp (List.mem_of_mem_take hj))
    have he := Date.mem_following.mp he
    exact start_lt_of_dates hz hw (mem_openHoursOn.mp hj).1 hi (by omega)

-- On Tuesdays there is an hour after midnight, for which the door unlocks on Monday already, before the
-- hour of Monday begins.
def earlyHour : OpeningHour where
  range := ⟨⟨1, 15, by decide, by decide⟩, ⟨1, 45, by decide, by decide⟩, by decide⟩
  openBefore := .ofSeconds 86400

def earlyTuesdays : Schedule where
  rules := { RuleSet.empty with
    regular := fun
      | .monday => [lateHour]
      | .tuesday => [earlyHour]
      | _ => [] }
  zone := ⟨"UTC", 0, []⟩
  country := ""
  holidays := .none

theorem withinDay_earlyTuesdays : earlyTuesdays.rules.WithinDay := by
  intro h hm
  cases hm
  case regular w hm =>
    cases w <;> simp only [earlyTuesdays, List.mem_singleton, List.not_mem_nil] at hm
    case monday => subst hm; decide
    case tuesday => subst hm; decide
  case dated hd _ => cases hd
  case holiday hm => cases hm

-- From Monday on, the first interval is that of Tuesday.
theorem findsFirst_upcoming_earlyTuesdays :
    earlyTuesdays.FindsFirst (.ofSeconds (4 * 86400)) 1 400
      (earlyTuesdays.upcoming (.ofSeconds (4 * 86400)) 1) ∧
    earlyTuesdays.upcoming (.ofSeconds (4 * 86400)) 1 =
      [⟨.ofSeconds (4 * 86400 + 4500), .ofSeconds (5 * 86400 + 6300)⟩] := by
  refine ⟨findsFirst_upcoming withinDay_earlyTuesdays fun _ => rfl, ?_⟩
  have hg : earlyTuesdays.gather (.ofSeconds (4 * 86400)) 1 lookahead
      (earlyTuesdays.zone.dateAt (.ofSeconds (4 * 86400))).previous 1 [] =
      [lateHour.on ⟨4⟩ earlyTuesdays.zone, earlyHour.on ⟨5⟩ earlyTuesdays.zone] := by
    decide +kernel
  have he : earlyTuesdays.rules.isEmpty = false := by decide
  have hnil : byStart [] = [] := List.mergeSort_nil
  rw [upcoming, intervalsFrom, hg, byStart_cons, byStart_cons, hnil, he]
  decide

end Schedule

end EntryDoor
