import EntryDoor.Proofs.Clock
import EntryDoor.Proofs.Schedule.Window
import EntryDoor.Proofs.Scheduler.Desired

namespace EntryDoor.Scheduler

open State

namespace Registers

variable {r : Registers} {t u e : Timestamp} {offset : Int}

-- An overwrite that does not hold any more never holds again.
theorem overwriteAt_of_none (h : r.overwriteAt t = none) (hle : t ≤ u) :
    r.overwriteAt u = none := by
  rw [overwriteAt, Option.filter_eq_none_iff] at *
  intro o ho hu
  have hu : u < o.expiry := of_decide_eq_true hu
  exact h o ho (decide_eq_true (Timestamp.lt_of_le_of_lt hle hu))

theorem statusAt_of_some {o : Overwrite} (h : r.overwriteAt t = some o) :
    r.statusAt t = ⟨o.state, some o.expiry, r.resetting, some o⟩ := by
  rw [statusAt, h]

theorem statusAt_of_none (h : r.overwriteAt t = none) : r.statusAt t =
    ⟨(r.schedule.stateAt t).state, (r.schedule.stateAt t).validUntil, r.resetting, none⟩ := by
  rw [statusAt, h]

variable (hw : r.schedule.rules.WithinDay) (hz : r.schedule.zone.Constant offset)

include hw hz

theorem state_of_lt (he : (r.statusAt t).validUntil = some e) (hle : t ≤ u) (hlt : u < e) :
    (r.statusAt u).state = (r.statusAt t).state := by
  cases ho : r.overwriteAt t with
  | some o =>
    rw [statusAt_of_some ho] at he ⊢
    cases he
    have ho' : r.overwriteAt u = some o := by
      rw [overwriteAt, Option.filter_eq_some_iff] at *
      exact ⟨ho.1, decide_eq_true hlt⟩
    rw [statusAt_of_some ho']
  | none =>
    rw [statusAt_of_none ho] at he ⊢
    rw [statusAt_of_none (overwriteAt_of_none ho hle)]
    exact (Schedule.asks_stateAt hz hw).state_of_lt (Schedule.asks_stateAt hz hw) hle he hlt

theorem state_of_sameDay (he : (r.statusAt t).validUntil = none) (hle : t ≤ u)
    (hd : r.schedule.zone.dateAt u = r.schedule.zone.dateAt t) :
    (r.statusAt u).state = (r.statusAt t).state := by
  cases ho : r.overwriteAt t with
  | some o => simp [statusAt_of_some ho] at he
  | none =>
    rw [statusAt_of_none ho] at he ⊢
    rw [statusAt_of_none (overwriteAt_of_none ho hle)]
    have hlt : u < r.schedule.endOfDay t := by
      rw [Schedule.endOfDay, ← hd]
      exact (Zone.midnight_dateAt hz u).2
    exact (Schedule.asks_stateAt hz hw).state_of_lt_endOfDay (Schedule.asks_stateAt hz hw) hle he hlt

end Registers

-- What the clock shows when the monotonic clock shows `i`, if they go on alike from `m`.
def clockAt (m : Moment) (i : Instant) : Timestamp :=
  m.clock.shift ((i : Int) - m.instant)

section

variable {p : Policy} {m : Moment} {e t u : Timestamp} {validUntil : Option Timestamp}

theorem pause_of_some : (p.pause (some e) m.clock).nanos = Policy.minPause.nanos ∨
    (p.pause (some e) m.clock).nanos ≤ (e.since m.clock).nanos := by
  simp only [Policy.pause, Duration.nanos_max, Duration.nanos_min]
  omega

theorem clockAt_wakeAt : clockAt m (p.wakeAt validUntil m) = m.clock ∨
    clockAt m (p.wakeAt validUntil m) = m.clock + p.pause validUntil m.clock := by
  unfold clockAt Policy.wakeAt Instant.add?
  split
  case isTrue =>
    right
    have : ((m.instant + (p.pause validUntil m.clock).nanos : Nat) : Int) - m.instant =
        (p.pause validUntil m.clock).nanos := by omega
    simp only [Option.getD_some]
    rw [this]
    rfl
  case isFalse =>
    left
    simp only [Option.getD_none, Int.sub_self]
    exact Timestamp.shift_zero

theorem sub_minPause_lt (t : Timestamp) : t - Policy.minPause < t :=
  Timestamp.shift_neg_lt (by decide : (0 : Int) < Policy.minPause.nanos)

-- After the shortest sleep there is nothing before the last millisecond of it.
theorem add_sub_minPause_le {d : Duration} (hd : d.nanos = Policy.minPause.nanos) :
    t + d - Policy.minPause ≤ t := by
  have : t + d = t.shift Policy.minPause.nanos := congrArg (fun n : Nat => t.shift n) hd
  rw [this]
  exact Timestamp.shift_shift_neg_le (by decide : (0 : Int) ≤ Policy.minPause.nanos)

-- A sleep for no longer than the time to `e` ends before `e`, or `e` is in a leap second.
theorem lt_of_le_since {d : Duration} (hpos : 0 < d.nanos) (hd : d.nanos ≤ (e.since t).nanos)
    (hu : u ≤ t + d - Policy.minPause) :
    u < e ∨ 1000000000 ≤ e.nanos ∧ e ≤ u ∧ t + d - Duration.ofSeconds 1 < u := by
  have hpos : (0 : Int) < d.nanos := by omega
  have hd : (d.nanos : Int) ≤ (e.since t).nanos := by omega
  have hlt : u < t + d := Timestamp.lt_of_le_of_lt hu (sub_minPause_lt _)
  by_cases hue : u < e
  case pos => exact .inl hue
  case neg =>
    have heu := Timestamp.not_lt.mp hue
    refine .inr ⟨?_, heu, ?_⟩
    case refine_1 =>
      refine Nat.le_of_not_lt fun he => ?_
      have hde : t + d ≤ e := Timestamp.shift_le_of_le_since hpos hd he
      exact Timestamp.not_le.mpr (Timestamp.lt_of_le_of_lt heu hlt) hde
    case refine_2 => exact Int.lt_of_lt_of_le (Timestamp.shift_sub_second_lt hpos hd) heu

-- Up to the last millisecond before the loop looks again.
theorem before_wake (hle : m.clock ≤ t)
    (ht : t ≤ clockAt m (p.wakeAt (some e) m) - Policy.minPause) : t = m.clock ∨ t < e ∨
      1000000000 ≤ e.nanos ∧ e ≤ t ∧
        clockAt m (p.wakeAt (some e) m) - Duration.ofSeconds 1 < t := by
  rcases @clockAt_wakeAt p m (some e) with hd | hd <;> rw [hd] at ht ⊢
  -- A sleep that the monotonic clock cannot show is none.
  case inl => exact absurd (Timestamp.le_trans hle ht) (Timestamp.not_le.mpr (sub_minPause_lt _))
  case inr =>
    rcases @pause_of_some p m e with hn | hn
    case inl =>
      exact .inl (Timestamp.le_antisymm (Timestamp.le_trans ht (add_sub_minPause_le hn)) hle)
    case inr =>
      have hpos := p.minPause_le_pause (some e) m.clock
      simp only [Duration.le_def, Policy.minPause, Duration.ofMillis] at hpos
      exact .inr (lt_of_le_since (by omega) hn ht)

end

-- The loop evaluates, and has not set the next wake-up.
@[simp] def Phase.IsEvaluating : Phase → Prop
  | evaluating => True
  | commanding (.evaluation _) .. => True
  | planning _ => True
  | _ => False

instance (phase : Phase) : Decidable phase.IsEvaluating := by
  unfold Phase.IsEvaluating
  split <;> infer_instance

-- An event during an evaluation that takes no time.
def Event.AtOnce (s : State) : Event → Prop
  | .pass .. => False
  | _ => s.phase.IsEvaluating

instance (s : State) (e : Event) : Decidable (e.AtOnce s) :=
  match e with
  | .pass .. => instDecidableFalse
  | .release => inferInstanceAs (Decidable s.phase.IsEvaluating)
  | .invoke _ => inferInstanceAs (Decidable s.phase.IsEvaluating)
  | .call .. => inferInstanceAs (Decidable s.phase.IsEvaluating)
  | .loop _ => inferInstanceAs (Decidable s.phase.IsEvaluating)

-- How far the evaluation that begins in `s` has come in `t`.
inductive Evaluates (p : Policy) (s t : State) : Prop
  | looking (hm : t.moment = s.moment) (hr : t.registers = s.registers) (hp : t.phase = .evaluating)
  | driving {c deadline} (hm : t.moment = s.moment) (hr : t.registers = s.driven p)
      (hp : t.phase = .commanding (.evaluation s.status.validUntil) c deadline)
  | planning (hm : t.moment = s.moment) (hr : t.registers = s.driven p)
      (hp : t.phase = .planning s.status.validUntil)
  | planned (hr : t.registers = s.driven p)
      (hp : t.phase = .polling (p.wakeAt s.status.validUntil s.moment))

section

variable {p : Policy} {s t u : State} {o : Outcome} {e : Event} {seen before : History}
  {schedule : Schedule} {m : Moment} {wake : Instant}

theorem Evaluates.loop (h : Evaluates p s t) (ha : t.phase.IsEvaluating) (hl : LoopStep p t o) :
    Evaluates p s o.1 := by
  cases h with
  | looking hm hr hp =>
    cases hl
    case evaluate =>
      have hs : t.status = s.status := by rw [status, status, hm, hr]
      have hd : t.driven p = s.driven p := by rw [driven, driven, hs, hm, hr]
      have hr' := t.evaluate_registers (p := p)
      rw [hd] at hr'
      have hm' := (LoopStep.evaluate (p := p) hp).moment.trans hm
      rcases t.evaluate_phase (p := p) with hp' | ⟨_, hp'⟩ <;> rw [hs] at hp'
      case inl => exact .planning hm' hr' hp'
      case inr => exact .driving hm' hr' hp'
    all_goals simp_all
  | driving hm hr hp =>
    cases hl
    case answer hp' => cases hp.symm.trans hp'; exact .planning hm hr rfl
    case timeOut hp' _ => cases hp.symm.trans hp'; exact .planning hm hr rfl
    all_goals simp_all
  | planning hm hr hp =>
    cases hl
    case plan hp' => cases hp.symm.trans hp'; exact .planned hr (by rw [hm])
    all_goals simp_all
  | planned hr hp => simp [hp] at ha

theorem Evaluates.congr (h : Evaluates p s t) (hm : u.moment = t.moment)
    (hr : u.registers = t.registers) (hp : u.phase = t.phase) : Evaluates p s u := by
  cases h with
  | looking hm' hr' hp' => exact .looking (hm.trans hm') (hr.trans hr') (hp.trans hp')
  | driving hm' hr' hp' => exact .driving (hm.trans hm') (hr.trans hr') (hp.trans hp')
  | planning hm' hr' hp' => exact .planning (hm.trans hm') (hr.trans hr') (hp.trans hp')
  | planned hr' hp' => exact .planned (hr.trans hr') (hp.trans hp')

theorem Evaluates.step (h : Evaluates p s t) (hs : Sound t) (ha : e.AtOnce t)
    (hst : t.step p e = some o) : Evaluates p s o.1 := by
  have hm : o.1.moment = t.moment := by
    rcases moment_of_step hst with hm | ⟨_, _, rfl, -⟩
    case inl => exact hm
    case inr => exact absurd ha id
  have hp : t.phase.IsEvaluating := by
    cases e
    case pass => exact absurd ha id
    all_goals exact ha
  cases Step.of_step hst
  case loop hl => exact h.loop hp hl
  case request hq =>
    have hl := sparesLoop_of_requestStep hq
    exact h.congr hm hl.registers hl.phase
  case stop hq =>
    have hl := sparesLoop_of_stopStep hq
    exact h.congr hm hl.registers hl.phase
  case spawn hc => simp [hs.claimed _ hc] at hp
  all_goals exact h.congr hm rfl rfl

theorem RunWhere.evaluates (hb : Run p (.initial schedule m) before s) (hs : s.phase = .evaluating)
    (run : RunWhere Event.AtOnce p s seen u) : Evaluates p s u := by
  induction run
  case refl => exact .looking rfl rfl hs
  case step run ha h ih => exact ih.step (hb.trans run.run).sound ha h

theorem RunWhere.wake_eq (hb : Run p (.initial schedule m) before s) (hs : s.phase = .evaluating)
    (run : RunWhere Event.AtOnce p s seen u) (hu : u.phase = .polling wake) :
    wake = p.wakeAt s.status.validUntil s.moment ∧ u.registers = s.driven p := by
  cases run.evaluates hb hs with
  | planned hr hp => exact ⟨by cases hu.symm.trans hp; rfl, hr⟩
  | _ => simp_all

-- An evaluation does not change what the door should be from then on.
theorem statusAt_driven {t : Timestamp} (ht : s.moment.clock ≤ t) :
    (s.driven p).statusAt t = s.registers.statusAt t := by
  have hd : s.driven p = s.registers.after p s.moment (.evaluated s.status) := rfl
  have ⟨_, _, _, ha⟩ := @Registers.after_evaluated p s.registers s.moment s.status
  rw [hd, ha]
  exact s.registers.statusAt_clearExpired ht

-- The state that was found in `s` is not slept through, if `r` is what is remembered and the loop looks again when
-- the clock shows `d`.
structure LooksInTime (s : State) (r : Registers) (d : Timestamp) : Prop where
  -- A known end is met within a millisecond, or within a second if it is in a leap second.
  known : ∀ e, s.status.validUntil = some e →
    ∀ t, s.moment.clock ≤ t → t ≤ d - Policy.minPause →
      (r.statusAt t).state = s.status.state ∨
        1000000000 ≤ e.nanos ∧ e ≤ t ∧ d - Duration.ofSeconds 1 < t
  -- Without a known end it is the state of the whole day.
  unknown : s.status.validUntil = none →
    ∀ t, s.moment.clock ≤ t →
      s.registers.schedule.zone.dateAt t = s.registers.schedule.zone.dateAt s.moment.clock →
      (r.statusAt t).state = s.status.state

-- For a state that ends within a leap second the loop may be a second late: the time to the end counts the leap
-- second, and the clock passes over it.
theorem RunWhere.looksInTime {offset : Int} (hb : Run p (.initial schedule m) before s)
    (hw : s.registers.schedule.rules.WithinDay) (hz : s.registers.schedule.zone.Constant offset)
    (hs : s.phase = .evaluating) (run : RunWhere Event.AtOnce p s seen u)
    (hu : u.phase = .polling wake) : LooksInTime s u.registers (clockAt s.moment wake) := by
  obtain ⟨rfl, hr⟩ := run.wake_eq hb hs hu
  refine ⟨fun e he t hle ht => ?_, fun hn t hle hd => ?_⟩ <;> rw [hr, statusAt_driven hle]
  case refine_1 =>
    rw [he] at ht ⊢
    rcases before_wake hle ht with rfl | hlt | hleap
    case inl => exact .inl rfl
    case inr.inl => exact .inl (Registers.state_of_lt hw hz he hle hlt)
    case inr.inr => exact .inr hleap
  case refine_2 => exact Registers.state_of_sameDay hw hz hn hle hd

end

section

variable {p : Policy} {s : State} {m : Moment} {seen : History}

-- Someone asks for an unlocked door until `expiry`, and the loop is about to evaluate.
def unlockUntil (expiry : Timestamp) : List Event :=
  [.invoke .start, .call 0 .advance, .call 0 .advance, .call 0 .advance, .loop .advance,
    .loop .advance, .invoke (.request (.overwrite ⟨.unlocked, expiry, "keypad"⟩)),
    .call 1 .advance, .call 1 .advance, .loop (.wake .request), .loop .advance, .loop .advance]

-- The door answers at once.
def promptDoor : List Event :=
  [.loop .advance, .loop (.answer (.ok ())), .loop .advance]

theorem eq_evaluating {phase : Phase} (h : phase matches .evaluating) : phase = .evaluating := by
  split at h
  case h_1 => rfl
  case h_2 => cases h

-- The reading at which a loop that is done with its work looks again.
def Phase.wake? : Phase → Option Instant
  | polling wake => some wake
  | _ => none

theorem eq_polling {phase : Phase} {wake : Instant} (h : phase.wake? = some wake) :
    phase = .polling wake := by
  cases phase <;> cases h
  rfl

theorem schedule_of_overwrite (run : RunWhere Event.Steady p (.initial closed m) seen s)
    (ha : seen.accepted matches [(_, .overwrite _)]) (hs : s.phase = .evaluating) :
    s.registers.schedule = closed := by
  have h := run.inForce.schedule
  rw [settled_of_not_accepting (by simp [hs]), History.scheduleInForce] at h
  split at ha
  case h_1 heq => rw [h, heq]; rfl
  case h_2 => cases ha

theorem withinDay_closed : closed.rules.WithinDay := by
  intro h hm
  cases hm
  case regular hm => cases hm
  case dated hd _ => cases hd
  case holiday hm => cases hm

theorem constant_closed : closed.zone.Constant 0 :=
  fun _ => rfl

theorem looksInTime_briefOverwrite : ∃ s u : State, s.status.validUntil = some (.ofSeconds 10) ∧
    clockAt s.moment 10000000000 = .ofSeconds 10 ∧
      LooksInTime s u.registers (clockAt s.moment 10000000000) := by
  have h : ∃ x ∈ (State.initial closed ⟨0, .ofSeconds 0⟩).follow {} Event.Steady
        (unlockUntil (.ofSeconds 10)),
      ∃ y ∈ x.2.follow {} Event.AtOnce promptDoor,
        (x.1.accepted matches [(_, .overwrite _)]) ∧ (x.2.phase matches .evaluating) ∧
          y.2.phase.wake? = some 10000000000 ∧
          x.2.status.validUntil = some (.ofSeconds 10) ∧
          clockAt x.2.moment 10000000000 = .ofSeconds 10 := by
    decide +kernel
  have ⟨⟨before, s⟩, hx, ⟨seen, u⟩, hy, ha, hs, hu, h⟩ := h
  have run := RunWhere.of_follow hx
  have hs := eq_evaluating hs
  have hc := schedule_of_overwrite run ha hs
  exact ⟨s, u, h.1, h.2, (RunWhere.of_follow hy).looksInTime run.run (hc ▸ withinDay_closed)
    (hc ▸ constant_closed) hs (eq_polling hu)⟩

-- Half past the minute and within the leap second at its end.
def halfPast : Timestamp := .ofSeconds 1704697230

def leapEnd : Timestamp where
  seconds := 1704697259
  nanos := 1500000000
  nanos_lt := by decide
  leap_ends_minute := by decide

-- The loop sleeps for half a second too long.
theorem not_looks_leapEnd : ∃ (before seen : History) (s u : State) (wake : Instant) (t : Timestamp),
    Run {} (.initial closed ⟨0, halfPast⟩) before s ∧ s.registers.schedule.rules.WithinDay ∧
      s.registers.schedule.zone.Constant 0 ∧ s.phase = .evaluating ∧
      RunWhere Event.AtOnce {} s seen u ∧ u.phase = .polling wake ∧
      s.status.validUntil = some leapEnd ∧ s.moment.clock ≤ t ∧
      t ≤ clockAt s.moment wake - Policy.minPause ∧
      (u.registers.statusAt t).state ≠ s.status.state := by
  have h : ∃ x ∈ (State.initial closed ⟨0, halfPast⟩).follow {} Event.Steady (unlockUntil leapEnd),
      ∃ y ∈ x.2.follow {} Event.AtOnce promptDoor,
        (x.1.accepted matches [(_, .overwrite _)]) ∧ (x.2.phase matches .evaluating) ∧
          y.2.phase.wake? = some 30500000000 ∧
          x.2.status.validUntil = some leapEnd ∧ x.2.moment.clock ≤ .ofSeconds 1704697260 ∧
          .ofSeconds 1704697260 ≤ clockAt x.2.moment 30500000000 - Policy.minPause ∧
          (y.2.registers.statusAt (.ofSeconds 1704697260)).state ≠ x.2.status.state := by
    decide +kernel
  have ⟨⟨before, s⟩, hx, ⟨seen, u⟩, hy, ha, hs, hu, h⟩ := h
  have run := RunWhere.of_follow hx
  have hs := eq_evaluating hs
  have hc := schedule_of_overwrite run ha hs
  exact ⟨before, seen, s, u, _, _, run.run, hc ▸ withinDay_closed, hc ▸ constant_closed, hs,
    RunWhere.of_follow hy, eq_polling hu, h⟩

end

end EntryDoor.Scheduler
