import EntryDoor.Proofs.Scheduler.Budget
import EntryDoor.Proofs.Scheduler.Stop

namespace EntryDoor.Scheduler

open State

-- How far a hard reset has come. What is left of its commands comes last.
inductive ResetStage
  | calling (begun : Moment) (c : Command) (rest : List Command)
  | pausing (since : Moment) (c : Command) (rest : List Command)
  | finished

namespace ResetStage

-- What comes after a call to the door that has ended at `m`.
def after (m : Moment) : List Command → ResetStage
  | [] => finished
  | c :: rest => pausing m c rest

-- The commands that have not been sent.
def left : ResetStage → List Command
  | calling _ _ rest => rest
  | pausing _ c rest => c :: rest
  | finished => []

theorem left_after {m : Moment} {rest : List Command} : (after m rest).left = rest := by
  cases rest <;> rfl

-- The reading at which it goes on, at the latest.
def due? (p : Policy) : ResetStage → Option Instant
  | calling begun _ _ => some (begun.instant.after p.resetCommandTimeout)
  | pausing since _ _ => some (since.instant.after p.resetSettleDelay)
  | finished => none

end ResetStage

-- What is seen of a hard reset that was accepted at `m`, until it has come to a stage. Each call to the
-- door ends before the next one begins, and the pause between them is that of the policy unless the
-- clock cannot show its end.
inductive ResetSeen (p : Policy) (m : Moment) (wake : Instant) : History → ResetStage → Prop
  | begin : ResetSeen p m wake [(m, .called (.reset [.lock, .unlock] wake) .unlock)]
      (.calling m .unlock [.lock, .unlock])
  | answer {during begun c rest ended result} (h : ResetSeen p m wake during (.calling begun c rest))
      (ht : ∀ cause, result = .error (.scheduler cause) →
        cause = .commandTimedOut c ∧ begun.instant.after p.resetCommandTimeout ≤ ended.instant) :
      ResetSeen p m wake (during ++ [(ended, .answered (.reset rest wake) c result)])
        (.after ended rest)
  | next {during since c rest begun} (h : ResetSeen p m wake during (.pausing since c rest))
      (hd : since.instant.after p.resetSettleDelay ≤ begun.instant) :
      ResetSeen p m wake (during ++ [(begun, .called (.reset rest wake) c)])
        (.calling begun c rest)

namespace Occurrence

-- The command of a call to the door that begins.
def command? : Occurrence → Option Command
  | called _ c => some c
  | _ => none

end Occurrence

namespace History

-- The commands sent to the door, in order.
def commands (seen : History) : List Command :=
  seen.filterMap (·.2.command?)

end History

theorem ResetSeen.commands {p : Policy} {m : Moment} {wake : Instant} {during : History}
    {stage : ResetStage} (h : ResetSeen p m wake during stage) :
    during.commands ++ stage.left = [.unlock, .lock, .unlock] := by
  induction h
  case begin => rfl
  case answer ih =>
    rw [ResetStage.left_after]
    simpa [ResetStage.left, History.commands, Occurrence.command?] using ih
  case next ih =>
    simpa [ResetStage.left, History.commands, Occurrence.command?] using ih

-- What is known of the first evaluation after a hard reset that has left the registers `r`. Its budget is a
-- new one.
structure FreshStart (p : Policy) (r : Registers) (m : Moment) (status : Status) (rest : History) :
    Prop where
  finding : status = r.statusAt m.clock
  budget : (r.after p m (.evaluated status)).Spent p status.state 1
  called : 0 < p.maxTries status.state → ∃ rest',
    rest = (m, .called (.evaluation status.validUntil) status.state.command) :: rest'

-- Where the loop is when `seen` was seen since it has accepted a hard reset, which has put `r` in place.
inductive Resetting (p : Policy) (r : Registers) (m : Moment) (wake : Instant) (s : State) :
    History → Prop
  | calling {during begun c rest} (h : ResetSeen p m wake during (.calling begun c rest))
      (hp : s.phase =
        .commanding (.reset rest wake) c (begun.instant.after p.resetCommandTimeout))
      (hr : s.registers.resetting = true) (ho : s.registers.overwrite = none) :
      Resetting p r m wake s during
  | pausing {during since c rest} (h : ResetSeen p m wake during (.pausing since c rest))
      (hp : s.phase = .settling (since.instant.after p.resetSettleDelay) (c :: rest) wake)
      (hr : s.registers.resetting = true) (ho : s.registers.overwrite = none) :
      Resetting p r m wake s during
  | back {during} (h : ResetSeen p m wake during .finished)
      (hp : s.phase = .carriedOut wake ∨ s.phase = .evaluating)
      (ht : s.registers.target = none) : Resetting p r m wake s during
  | halted {during} (h : ResetSeen p m wake during .finished) (hh : s.Halted) :
      Resetting p r m wake s during
  | evaluated {during m' status rest} (h : ResetSeen p m wake during .finished)
      (hf : FreshStart p (during.replay p r) m' status rest) :
      Resetting p r m wake s (during ++ (m', .evaluated status) :: rest)

namespace Resetting

variable {p : Policy} {s t : State} {o : Outcome} {seen during : History} {r : Registers}
  {m begun : Moment} {wake : Instant} {c : Command} {rest : List Command}
  {result : Except Failure Unit}

-- A step that leaves the loop alone, and takes no stop back.
theorem congr (h : Resetting p r m wake s seen) (hp : t.phase = s.phase)
    (hr : t.registers = s.registers) (hs : s.stopping = true → t.stopping = true) :
    Resetting p r m wake t seen := by
  cases h with
  | calling h hp' hf ho => exact .calling h (hp.trans hp') (hr ▸ hf) (hr ▸ ho)
  | pausing h hp' hf ho => exact .pausing h (hp.trans hp') (hr ▸ hf) (hr ▸ ho)
  | back h hp' ht => exact .back h (hp ▸ hp') (hr ▸ ht)
  | halted h hh => exact .halted h ⟨hs hh.stopping, hp ▸ hh.idle⟩
  | evaluated h hf => exact .evaluated h hf

theorem answered (h : ResetSeen p m wake during (.calling begun c rest))
    (hr : s.registers.resetting = true) (ho : s.registers.overwrite = none)
    (ht : ∀ cause, result = .error (.scheduler cause) →
      cause = .commandTimedOut c ∧ begun.instant.after p.resetCommandTimeout ≤ s.moment.instant) :
    Resetting p r m wake (s.afterCommand p result (.reset rest wake))
      (during ++ [(s.moment, .answered (.reset rest wake) c result)]) := by
  have h := h.answer ht
  cases rest
  case nil => exact .back h (.inl rfl) rfl
  case cons => exact .pausing h rfl hr ho

theorem evaluate (h : ResetSeen p m wake during .finished) (ht : s.registers.target = none)
    (hr : s.registers = during.replay p r) : Resetting p r m wake (s.evaluate p).1
      (during ++ (s.evaluate p).2.map (s.moment, ·)) := by
  have hn : (s.registers.clearExpired s.moment.clock).target ≠ some s.status.state := by
    simp [Registers.clearExpired, ht]
  have hb := Registers.spent_aim (p := p) hn
  rw [evaluate_seen hb, List.map_cons]
  refine .evaluated h ⟨by rw [← hr]; rfl, ?_, fun hm => ?_⟩
  case refine_1 =>
    rw [← hr]
    exact hb.next
  case refine_2 =>
    rw [if_pos hm]
    exact ⟨[], rfl⟩

theorem loop (h : Resetting p r m wake s seen) (hr : s.settled = seen.replay p r)
    (hl : LoopStep p s o) : Resetting p r m wake o.1 (seen ++ o.2.map (s.moment, ·)) := by
  cases h with
  | calling h hp hf ho =>
    cases hl
    case answer result hp' =>
      cases hp.symm.trans hp'
      exact answered h hf ho (by cases result <;> nofun)
    case timeOut hp' hd =>
      cases hp.symm.trans hp'
      exact answered h hf ho (by rintro _ ⟨⟩; exact ⟨rfl, hd⟩)
    all_goals simp_all
  | pausing h hp hf ho =>
    cases hl
    case settle hp' hd =>
      cases hp.symm.trans hp'
      exact .calling (h.next hd) rfl hf ho
    all_goals simp_all
  | back h hp ht =>
    have ha : ¬s.phase.IsAccepting := by rcases hp with hp | hp <;> simp [hp]
    rw [settled_of_not_accepting ha] at hr
    cases hl
    case yield hs =>
      rw [List.map_nil, List.append_nil]
      exact .halted h ⟨hs, trivial⟩
    case goOn =>
      rw [List.map_nil, List.append_nil]
      exact .back h (.inr rfl) ht
    case evaluate => exact evaluate h ht hr
    all_goals simp_all
  | halted h hh =>
    obtain ⟨hh', hn, -⟩ := hl.halted hh
    rw [hn, List.map_nil, List.append_nil]
    exact .halted h hh'
  | evaluated h hf =>
    rw [List.append_assoc, List.cons_append]
    refine .evaluated h ⟨hf.finding, hf.budget, fun hm => ?_⟩
    have ⟨rest', hr⟩ := hf.called hm
    exact ⟨_, by rw [hr, List.cons_append]⟩

theorem step (h : Resetting p r m wake s seen) (hs : Sound s) (hr : s.settled = seen.replay p r)
    (hst : Step p s o) : Resetting p r m wake o.1 (seen ++ o.2.map (s.moment, ·)) := by
  have hstop := hst.stopping
  cases hst
  case loop hl => exact h.loop hr hl
  all_goals rw [List.map_nil, List.append_nil]
  case request hq =>
    have hl := sparesLoop_of_requestStep hq
    exact h.congr hl.phase hl.registers hstop
  case stop hq =>
    have hl := sparesLoop_of_stopStep hq
    exact h.congr hl.phase hl.registers hstop
  -- A loop that has accepted a request was started before.
  case spawn hc =>
    have hp := hs.claimed _ hc
    cases h with
    | halted h hh => exact .halted h ⟨hh.stopping, trivial⟩
    | evaluated h hf => exact .evaluated h hf
    | _ => simp_all
  all_goals exact h.congr rfl rfl hstop

end Resetting

section

variable {p : Policy} {s v : State} {o : Outcome} {schedule : Schedule} {m m₀ : Moment}
  {first skipped rest seen later : History} {i : CallId} {r : Registers} {wake : Instant}

theorem Step.resetting (hs : Sound s) (h : Step p s o)
    (hn : o.2.map (s.moment, ·) = skipped ++ (m, .accepted i .reset) :: rest) :
    skipped = [] ∧ ∃ wake, Resetting p r m wake o.1 rest := by
  cases h
  case loop h =>
    cases h
    case accept q _ hp hc =>
      have hr := hs.eq_install hp hc
      cases q <;> rcases skipped with _ | ⟨x, _ | ⟨y, skipped⟩⟩ <;> simp [carryOut, command] at hn
      obtain ⟨⟨rfl, rfl⟩, rfl⟩ := hn
      refine ⟨rfl, _, .calling .begin rfl ?_ ?_⟩ <;>
        simp [carryOut, command, setStage, hr, Registers.install]
    case evaluate =>
      rw [evaluate_eq] at hn
      split at hn <;> rcases skipped with _ | ⟨x, _ | ⟨y, skipped⟩⟩ <;> simp at hn
    all_goals rcases skipped with _ | ⟨x, skipped⟩ <;> simp [command, State.answered] at hn
  all_goals simp at hn

-- What the whole run has shown by now decides the registers, and so does what was seen since.
theorem Run.resetting (hv : Run p (.initial schedule m₀) first v)
    (hb : first.replay p { schedule } = rest.replay p r) (h : Resetting p r m wake v rest)
    (run : Run p v later s) : Resetting p r m wake s (rest ++ later) := by
  induction run
  case refl => rwa [List.append_nil]
  case step run hs ih =>
    have full := hv.trans run
    have hr := full.settled_eq_replay
    rw [History.replay_append, hb, ← History.replay_append] at hr
    rw [← List.append_assoc]
    exact ih.step full.sound hr (Step.of_step hs)

end

-- What holds in a state in which a hard reset has come to a stage and `since` was seen after it, where `r` is
-- what it leaves in the registers.
inductive ResetLeads (p : Policy) (s : State) (r : Registers) : ResetStage → History → Prop
  | underWay {stage due} (hd : stage.due? p = some due) (flag : s.registers.resetting = true)
      (overwrite : s.registers.overwrite = none)
      (goesOn : due ≤ s.moment.instant → ∃ e o, s.step p (.loop e) = some o ∧ o.2 ≠ []) :
      ResetLeads p s r stage []
  | stopped (hs : s.stopping = true) (still : ∀ later t, Run p s later t → later = []) :
      ResetLeads p s r .finished []
  -- A stop that is requested now comes too late only if the loop has looked for one already.
  | back (hs : s.stopping = true → s.phase = .evaluating)
      (goesOn : ∃ now t,
        Run p s ((s.moment, .evaluated (r.statusAt s.moment.clock)) :: now) t) :
      ResetLeads p s r .finished []
  | evaluated {m status rest} (hf : FreshStart p r m status rest) :
      ResetLeads p s r .finished ((m, .evaluated status) :: rest)

-- The door is unlocked, locked and unlocked again, whatever comes of it and whatever happens meanwhile. Then the
-- loop evaluates at once, unless it is to stop.
structure HardReset (p : Policy) (schedule : Schedule) (seen : History) (s : State) : Prop where
  waiting : ∀ wake, s.phase = .waiting wake → s.registers.resetting = false
  cycle : ∀ (before : History) m i after, seen = before ++ (m, .accepted i .reset) :: after →
    ∃ (wake : Instant) (during : History) (stage : ResetStage) (since : History),
      after = during ++ since ∧ ResetSeen p m wake during stage ∧
      during.commands ++ stage.left = [.unlock, .lock, .unlock] ∧
      ResetLeads p s
        (History.replay p { schedule } (before ++ (m, .accepted i .reset) :: during)) stage since

section

variable {p : Policy} {s : State} {schedule : Schedule} {m m₀ : Moment} {seen after : History}
  {r : Registers} {wake : Instant}

-- When its limit has come, a call to the door can be given up.
theorem exists_step_of_commanding {purpose : Purpose} {c : Command} {due : Instant}
    (hp : s.phase = .commanding purpose c due) (hd : due ≤ s.moment.instant) :
    ∃ e o, s.step p (.loop e) = some o ∧ o.2 ≠ [] := by
  have hstep : s.step p (.loop .timeOut) =
      some (s.answered p (.error (.scheduler (.commandTimedOut c))) purpose c) := by
    simp only [step, loopStep, hp, if_pos hd]
  exact ⟨_, _, hstep, by simp [State.answered]⟩

theorem exists_step_of_settling {c : Command} {rest : List Command} {due : Instant}
    (hp : s.phase = .settling due (c :: rest) wake) (hd : due ≤ s.moment.instant) :
    ∃ e o, s.step p (.loop e) = some o ∧ o.2 ≠ [] := by
  have hstep : s.step p (.loop .advance) =
      some (s.command (.reset rest wake) c p.resetCommandTimeout) := by
    simp only [step, loopStep, advance, hp, if_pos hd]
  exact ⟨_, _, hstep, by simp [command]⟩

theorem exists_run_of_evaluating (hp : s.phase = .evaluating) :
    ∃ now t, Run p s ((s.moment, .evaluated s.status) :: now) t := by
  have hstep : s.step p (.loop .advance) = some (s.evaluate p) := by
    simp only [step, loopStep, advance, hp]
  have run : Run p s ((s.evaluate p).2.map (s.moment, ·)) (s.evaluate p).1 := .single hstep
  have hseen : ∃ now, (s.evaluate p).2 = .evaluated s.status :: now := by
    rw [evaluate_eq]
    split <;> exact ⟨_, rfl⟩
  obtain ⟨now, hn⟩ := hseen
  rw [hn] at run
  exact ⟨_, _, run⟩

theorem exists_run_of_carriedOut (hp : s.phase = .carriedOut wake) (hs : s.stopping = false) :
    ∃ now t, Run p s ((s.moment, .evaluated s.status) :: now) t := by
  have hstep : s.step p (.loop .advance) = some ({ s with phase := .evaluating }, []) := by
    simp [step, loopStep, advance, hp, hs]
  have run : Run p s [] { s with phase := .evaluating } := .single hstep
  have hnow : ∃ now t, Run p { s with phase := .evaluating }
      ((s.moment, .evaluated s.status) :: now) t := exists_run_of_evaluating rfl
  obtain ⟨now, t, run'⟩ := hnow
  exact ⟨now, t, run.trans run'⟩

theorem Resetting.leads (h : Resetting p r m wake s after) (hr : s.settled = after.replay p r) :
    ∃ (during : History) (stage : ResetStage) (since : History), after = during ++ since ∧
      ResetSeen p m wake during stage ∧ ResetLeads p s (during.replay p r) stage since := by
  have hnil : after = after ++ [] := (List.append_nil _).symm
  cases h with
  | calling h hp hf ho =>
    exact ⟨after, _, [], hnil, h, .underWay rfl hf ho (exists_step_of_commanding hp)⟩
  | pausing h hp hf ho =>
    exact ⟨after, _, [], hnil, h, .underWay rfl hf ho (exists_step_of_settling hp)⟩
  | halted h hh =>
    exact ⟨after, _, [], hnil, h, .stopped hh.stopping fun later t run => (run.halted hh).1⟩
  | evaluated h hf => exact ⟨_, _, _, rfl, h, .evaluated hf⟩
  | back h hp ht =>
    have ha : ¬s.phase.IsAccepting := by rcases hp with hp | hp <;> simp [hp]
    rw [settled_of_not_accepting ha] at hr
    refine ⟨after, _, [], hnil, h, ?_⟩
    rw [← hr]
    rcases hp with hp | hp
    case inr => exact .back (fun _ => hp) (exists_run_of_evaluating hp)
    case inl =>
      cases hs : s.stopping
      case false => exact .back (by simp [hs]) (exists_run_of_carriedOut hp hs)
      -- The loop sees the stop before it evaluates.
      case true =>
        have hh : s.Halted := ⟨hs, by simp [hp]⟩
        exact .stopped hs fun later t run => (run.halted hh).1

theorem Run.hardReset (run : Run p (.initial schedule m₀) seen s) :
    HardReset p schedule seen s where
  waiting wake hp := run.sound.registers_calm (by simp [hp]) (by simp [hp])
  cycle before m i after hseen := by
    subst hseen
    obtain ⟨first, t, e, v, now, skipped, rest, later, hfirst, hstep, hlater, hnow, rfl, rfl⟩ :=
      run.cut
    generalize hb : History.replay p { schedule } (first ++ [(m, .accepted i .reset)]) = r
    obtain ⟨rfl, wake, h⟩ := (Step.of_step hstep).resetting (r := r) hfirst.sound hnow
    rw [List.append_nil] at run ⊢
    have hbase (later : History) :
        History.replay p { schedule } (first ++ (m, .accepted i .reset) :: later) =
          later.replay p r := by
      rw [List.append_cons, History.replay_append, hb]
    have hv := hfirst.step hstep
    rw [hnow] at hv
    have h' := hv.resetting (hbase rest) h hlater
    have hr := run.settled_eq_replay
    rw [hbase] at hr
    obtain ⟨during, stage, since, ha, hs, hl⟩ := h'.leads hr
    refine ⟨wake, during, stage, since, ha, hs, hs.commands, ?_⟩
    rwa [hbase]

end

-- The door answers to the first command, not in time to the second one, and is offline for the third one.
-- Then the loop looks again and locks it.
def stubbornDoor : List Event :=
  [.invoke .start, .call 0 .advance, .call 0 .advance, .call 0 .advance, .loop .advance,
    .loop .advance, .invoke (.request .reset), .call 1 .advance, .call 1 .advance,
    .loop (.wake .request), .loop .advance, .loop (.answer (.ok ())),
    .pass (.ofSeconds 2) (.ofSeconds 2), .loop .advance, .pass (.ofSeconds 10) (.ofSeconds 12),
    .loop .timeOut, .pass (.ofSeconds 3) (.ofSeconds 15), .loop .advance,
    .loop (.answer (.error .offline)), .loop .advance, .loop .advance]

theorem hardReset_stubbornDoor : ∃ seen s, HardReset {} closed seen s ∧
    seen.callers = [1] ∧ seen.commands = [.unlock, .lock, .unlock, .lock] ∧
      seen.driven = [.lock] := by
  have h : ∃ x ∈ (State.initial closed ⟨0, .ofSeconds 0⟩).follow {} (fun _ _ => True) stubbornDoor,
      x.1.callers = [1] ∧ x.1.commands = [.unlock, .lock, .unlock, .lock] ∧
        x.1.driven = [.lock] := by
    decide +kernel
  have ⟨x, hx, h⟩ := h
  exact ⟨x.1, x.2, (RunWhere.of_follow hx).run.hardReset, h⟩

end EntryDoor.Scheduler
