import EntryDoor.Scheduler.Run

namespace EntryDoor.Scheduler

open State

variable {p : Policy} {s t : State} {o : Outcome} {now : List Occurrence} {e : Event}

-- All that the loop can do. The names are those of the phases it leaves or goes to.
inductive LoopStep (p : Policy) (s : State) : Outcome → Prop
  | begin (h : s.phase = .spawned) :
      LoopStep p s ({ s with phase := .polling s.moment.instant }, [])
  | leave {wake} (h : s.phase = .polling wake) (hs : s.stopping = true) :
      LoopStep p s ({ s with phase := .leaving }, [])
  | wait {wake} (h : s.phase = .polling wake) (hs : s.stopping = false) :
      LoopStep p s ({ s with phase := .waiting wake }, [])
  | shutdown {wake} (h : s.phase = .waiting wake) (hs : s.stopping = true) :
      LoopStep p s ({ s with phase := .polling wake }, [])
  | abandon {wake} (h : s.phase = .waiting wake) (ha : s.Abandoned) :
      LoopStep p s ({ s with phase := .leaving }, [])
  | timer {wake} (h : s.phase = .waiting wake) (hw : wake ≤ s.moment.instant) :
      LoopStep p s ({ s with phase := .evaluating }, [])
  | receive {wake i r stage} (h : s.phase = .waiting wake) (hi : s.slot = some i)
      (hc : s.calls[i]? = some (.request r stage)) :
      LoopStep p s ({ s with
        slot := none
        registers := s.registers.install r
        phase := .accepting i wake s.registers }, [])
  | accept {i wake before r d} (h : s.phase = .accepting i wake before)
      (hc : s.calls[i]? = some (.request r (.queued d))) :
      LoopStep p s (((s.setStage i r .accepted).carryOut p i wake r).1,
        .accepted i r :: ((s.setStage i r .accepted).carryOut p i wake r).2)
  | withdraw {i wake before r stage} (h : s.phase = .accepting i wake before)
      (hc : s.calls[i]? = some (.request r stage)) (hs : ∀ d, stage ≠ .queued d) :
      LoopStep p s ({ s with
        registers := s.registers.withdraw before r
        phase := .polling wake }, [])
  | yield {wake} (h : s.phase = .carriedOut wake) (hs : s.stopping = true) :
      LoopStep p s ({ s with phase := .polling wake }, [])
  | goOn {wake} (h : s.phase = .carriedOut wake) (hs : s.stopping = false) :
      LoopStep p s ({ s with phase := .evaluating }, [])
  | evaluate (h : s.phase = .evaluating) :
      LoopStep p s (s.evaluate p)
  | settle {due c rest wake} (h : s.phase = .settling due (c :: rest) wake)
      (hd : due ≤ s.moment.instant) :
      LoopStep p s (s.command (.reset rest wake) c p.resetCommandTimeout)
  | plan {validUntil} (h : s.phase = .planning validUntil) :
      LoopStep p s ({ s with phase := .polling (p.wakeAt validUntil s.moment) }, [])
  | announce (h : s.phase = .leaving) :
      LoopStep p s ({ s with phase := .announced }, [])
  | finish (h : s.phase = .announced) :
      LoopStep p s ({ s with phase := .ended, slot := none }, [])
  | answer {purpose c deadline} (result : Except HardwareFault Unit)
      (h : s.phase = .commanding purpose c deadline) :
      LoopStep p s (s.answered p (result.mapError .hardware) purpose c)
  | timeOut {purpose c deadline} (h : s.phase = .commanding purpose c deadline)
      (hd : deadline ≤ s.moment.instant) :
      LoopStep p s (s.answered p (.error (.scheduler (.commandTimedOut c))) purpose c)

namespace LoopStep

-- The cases are those of `advance`, in its order.
theorem of_advance (h : s.advance p = some o) : LoopStep p s o := by
  unfold advance at h
  split at h
  case h_1 hp => cases h; exact .begin hp
  case h_2 hp =>
    cases h
    by_cases hs : s.stopping
    case pos => rw [if_pos hs]; exact .leave hp hs
    case neg => rw [if_neg hs]; exact .wait hp (by simpa using hs)
  case h_3 hp =>
    unfold complete at h
    split at h
    case h_1 hc => cases h; exact .accept hp hc
    case h_2 hn hc => cases h; exact .withdraw hp hc hn
    case h_3 => cases h
  case h_4 hp =>
    cases h
    by_cases hs : s.stopping
    case pos => rw [if_pos hs]; exact .yield hp hs
    case neg => rw [if_neg hs]; exact .goOn hp (by simpa using hs)
  case h_5 hp => cases h; exact .evaluate hp
  case h_6 hp =>
    split at h
    case isTrue hd => cases h; exact .settle hp hd
    case isFalse => cases h
  case h_7 hp => cases h; exact .plan hp
  case h_8 hp => cases h; exact .announce hp
  case h_9 hp => cases h; exact .finish hp
  case h_10 => cases h

theorem of_wakeUp {wake : Instant} {cause : Wake} (hp : s.phase = .waiting wake)
    (h : s.wakeUp wake cause = some o) : LoopStep p s o := by
  cases cause
  case shutdown =>
    simp only [wakeUp, Option.ite_none_right_eq_some] at h
    have ⟨hs, h⟩ := h
    cases h
    exact .shutdown hp hs
  case abandoned =>
    simp only [wakeUp, Option.ite_none_right_eq_some] at h
    have ⟨ha, h⟩ := h
    cases h
    exact .abandon hp ha
  case request =>
    have ⟨i, hi, h⟩ := Option.bind_eq_some_iff.mp h
    split at h
    case h_1 hc => cases h; exact .receive hp hi hc
    case h_2 => cases h
  case timer =>
    simp only [wakeUp, Option.ite_none_right_eq_some] at h
    have ⟨hw, h⟩ := h
    cases h
    exact .timer hp hw

theorem of_loopStep {e : LoopEvent} (h : s.loopStep p e = some o) : LoopStep p s o := by
  cases e
  case advance => exact of_advance h
  case wake cause =>
    simp only [loopStep] at h
    split at h
    case h_1 hp => exact of_wakeUp hp h
    case h_2 => cases h
  case answer result =>
    simp only [loopStep] at h
    split at h
    case h_1 hp => cases h; exact .answer result hp
    case h_2 => cases h
  case timeOut =>
    simp only [loopStep] at h
    split at h
    case h_1 hp =>
      simp only [Option.ite_none_right_eq_some] at h
      have ⟨hd, h⟩ := h
      cases h
      exact .timeOut hp hd
    case h_2 => cases h

end LoopStep

-- The stages that a request can go to by a step of its caller. The loop moves it from `queued` to
-- `accepted`, and a buzz from there to `replied`.
inductive RequestStage.Follows (r : Request) : RequestStage → RequestStage → Prop
  | send (d) : Follows r .created (.sending d)
  | enqueue (d) : Follows r (.sending d) (.queued d)
  | turnedAway : Follows r .created (.refused .stopped)
  | leaveLine (d cause) : Follows r (.sending d) (.refused cause)
  | leaveQueue (d cause) : Follows r (.queued d) (.refused cause)
  | finish (h : r ≠ .buzz) : Follows r .accepted (.done (.ok ()))
  | finishBuzz (result) : Follows r (.replied result) (.done result)
  | drop {stage} (h : stage.isOver = false) : Follows r stage .dropped

structure SameLoop (s t : State) : Prop where
  registers : t.registers = s.registers
  phase : t.phase = s.phase
  unclaimed : t.unclaimed = s.unclaimed

-- What the callers of requests and of stops leave alone.
structure SparesLoop (s t : State) : Prop extends SameLoop s t where
  moment : t.moment = s.moment

variable {i : CallId} {r : Request} {stage : RequestStage} {ce : CallEvent}

theorem sparesLoop_of_requestStep (h : s.requestStep p i r stage ce = some t) : SparesLoop s t := by
  cases ce
  case drop =>
    simp only [requestStep] at h
    split at h <;> cases h
    exact ⟨⟨rfl, rfl, rfl⟩, rfl⟩
  all_goals cases stage <;> simp only [requestStep, reduceCtorEq] at h
  case advance.created => split at h <;> cases h <;> exact ⟨⟨rfl, rfl, rfl⟩, rfl⟩
  case advance.sending => split at h <;> cases h; exact ⟨⟨rfl, rfl, rfl⟩, rfl⟩
  case advance.accepted => cases r <;> cases h <;> exact ⟨⟨rfl, rfl, rfl⟩, rfl⟩
  case advance.replied => cases h; exact ⟨⟨rfl, rfl, rfl⟩, rfl⟩
  case giveUp.sending =>
    obtain ⟨_, -, rfl⟩ := Option.map_eq_some_iff.mp h
    exact ⟨⟨rfl, rfl, rfl⟩, rfl⟩
  case giveUp.queued =>
    obtain ⟨_, -, rfl⟩ := Option.map_eq_some_iff.mp h
    exact ⟨⟨rfl, rfl, rfl⟩, rfl⟩

theorem calls_of_requestStep (h : s.requestStep p i r stage ce = some t) :
    ∃ stage', stage.Follows r stage' ∧ t.calls = s.calls.set i (.request r stage') := by
  cases ce
  case drop =>
    simp only [requestStep] at h
    split at h <;> cases h
    case isFalse hs => exact ⟨_, .drop (by simpa using hs), rfl⟩
  all_goals cases stage <;> simp only [requestStep, reduceCtorEq] at h
  case advance.created =>
    split at h <;> cases h
    case isTrue => exact ⟨_, .turnedAway, rfl⟩
    case isFalse => exact ⟨_, .send _, rfl⟩
  case advance.sending => split at h <;> cases h; exact ⟨_, .enqueue _, rfl⟩
  case advance.accepted => cases r <;> cases h <;> exact ⟨_, .finish nofun, rfl⟩
  case advance.replied => cases h; exact ⟨_, .finishBuzz _, rfl⟩
  case giveUp.sending =>
    obtain ⟨cause, -, rfl⟩ := Option.map_eq_some_iff.mp h
    exact ⟨_, .leaveLine _ cause, rfl⟩
  case giveUp.queued =>
    obtain ⟨cause, -, rfl⟩ := Option.map_eq_some_iff.mp h
    exact ⟨_, .leaveQueue _ cause, rfl⟩

theorem calls_of_stopStep {stage : StopStage} (h : s.stopStep i stage = some t) :
    ∃ stage', t.calls = s.calls.set i (.stop stage') := by
  cases stage <;> simp only [stopStep, Option.ite_none_right_eq_some, reduceCtorEq] at h
  case joining | awaitingExit => obtain ⟨-, h⟩ := h; cases h; exact ⟨_, rfl⟩
  all_goals cases h; exact ⟨_, rfl⟩

theorem sparesLoop_of_stopStep {stage : StopStage} (h : s.stopStep i stage = some t) :
    SparesLoop s t := by
  cases stage <;> simp only [stopStep, Option.ite_none_right_eq_some, reduceCtorEq] at h
  case joining | awaitingExit => obtain ⟨-, h⟩ := h; cases h; exact ⟨⟨rfl, rfl, rfl⟩, rfl⟩
  all_goals cases h; exact ⟨⟨rfl, rfl, rfl⟩, rfl⟩

-- All that can happen in a state. The steps of a start are told apart, for one of them spawns the
-- loop.
inductive Step (p : Policy) (s : State) : Outcome → Prop
  | pass (elapsed : Duration) (clock : Timestamp) :
      Step p s ({ s with moment := ⟨s.moment.instant + elapsed.nanos, clock⟩ }, [])
  | release : Step p s ({ s with released := true }, [])
  | invoke (what : Invocation) : Step p s ({ s with calls := s.calls ++ [what.call] }, [])
  | request {i : CallId} {r : Request} {stage : RequestStage} {ce : CallEvent} {t : State}
      (hc : s.calls[i]? = some (.request r stage))
      (h : s.requestStep p i r stage ce = some t) : Step p s (t, [])
  | turnAway {i : CallId} (hc : s.calls[i]? = some (.start .created)) (hs : s.stopping = true) :
      Step p s ({ s with calls := s.calls.set i (.start (.finished (.error .stopped))) }, [])
  | check {i : CallId} (hc : s.calls[i]? = some (.start .created)) (hs : s.stopping = false) :
      Step p s ({ s with calls := s.calls.set i (.start .checked) }, [])
  | claim {i : CallId} (hc : s.calls[i]? = some (.start .checked)) (hu : s.unclaimed = true) :
      Step p s ({ s with calls := s.calls.set i (.start .claimed), unclaimed := false }, [])
  | claimLate {i : CallId} (hc : s.calls[i]? = some (.start .checked)) (hu : s.unclaimed = false) :
      Step p s ({ s with
        calls := s.calls.set i (.start (.finished (.error .alreadyStarted)))
        unclaimed := false }, [])
  | spawn {i : CallId} (hc : s.calls[i]? = some (.start .claimed)) :
      Step p s ({ s with calls := s.calls.set i (.start .spawned), phase := .spawned }, [])
  | started {i : CallId} (hc : s.calls[i]? = some (.start .spawned)) :
      Step p s ({ s with
        calls := s.calls.set i (.start (.finished (.ok ())))
        hasHandle := true }, [])
  | stop {i : CallId} {stage : StopStage} {t : State}
      (hc : s.calls[i]? = some (.stop stage)) (h : s.stopStep i stage = some t) :
      Step p s (t, [])
  | dropStop {i : CallId} {stage : StopStage} (hc : s.calls[i]? = some (.stop stage)) :
      Step p s ({ s with calls := s.calls.set i (.stop .dropped) }, [])
  | loop {o : Outcome} (h : LoopStep p s o) : Step p s o

namespace Step

theorem of_startStep {stage : StartStage} (hc : s.calls[i]? = some (.start stage))
    (h : s.startStep i stage = some t) : Step p s (t, []) := by
  cases stage <;> simp only [startStep, reduceCtorEq] at h <;> cases h
  case created =>
    by_cases hs : s.stopping
    case pos => rw [if_pos hs]; exact .turnAway hc hs
    case neg => rw [if_neg hs]; exact .check hc (by simpa using hs)
  case checked =>
    by_cases hu : s.unclaimed
    case pos => rw [if_pos hu]; exact .claim hc hu
    case neg => rw [if_neg hu]; exact .claimLate hc (by simpa using hu)
  case claimed => exact .spawn hc
  case spawned => exact .started hc

theorem of_callStep (h : s.callStep p i ce = some t) : Step p s (t, []) := by
  have ⟨c, hc, h⟩ := Option.bind_eq_some_iff.mp h
  split at h
  case h_1 => exact .request hc h
  case h_2 => exact of_startStep hc h
  case h_3 => exact .stop hc h
  case h_4 => split at h <;> cases h; exact .dropStop hc
  case h_5 => cases h

theorem of_step (h : s.step p e = some o) : Step p s o := by
  cases e <;> simp only [State.step] at h
  case pass => cases h; exact .pass _ _
  case release => cases h; exact .release
  case invoke => split at h <;> cases h; exact .invoke _
  case call =>
    obtain ⟨t, hc, rfl⟩ := Option.map_eq_some_iff.mp h
    exact of_callStep hc
  case loop => exact .loop (LoopStep.of_loopStep h)

end Step

-- Time passes only when it is said to.
theorem LoopStep.moment (h : LoopStep p s o) : o.1.moment = s.moment := by
  cases h
  case accept r _ _ _ => cases r <;> rfl
  case evaluate =>
    simp only [State.evaluate]
    split <;> rfl
  case answer | timeOut =>
    simp only [State.answered, afterCommand]
    split <;> try rfl
    simp only [reply]
    split <;> rfl
  all_goals rfl

theorem moment_of_startStep {stage : StartStage} (h : s.startStep i stage = some t) :
    t.moment = s.moment := by
  cases stage <;> cases h <;> rfl

theorem State.moment_of_callStep (h : s.callStep p i ce = some t) : t.moment = s.moment := by
  obtain ⟨c, -, hm⟩ := Option.bind_eq_some_iff.mp h
  split at hm
  case h_1 => exact (sparesLoop_of_requestStep hm).moment
  case h_2 => exact moment_of_startStep hm
  case h_3 => exact (sparesLoop_of_stopStep hm).moment
  case h_4 => split at hm <;> cases hm; rfl
  case h_5 => cases hm

theorem State.moment_of_step (h : s.step p e = some o) :
    o.1.moment = s.moment ∨ ∃ elapsed clock, e = .pass elapsed clock ∧ o.1.moment.clock = clock := by
  cases e
  case pass elapsed clock => cases h; exact .inr ⟨elapsed, clock, rfl, rfl⟩
  case release => cases h; exact .inl rfl
  case invoke =>
    simp only [State.step] at h
    split at h <;> cases h
    exact .inl rfl
  case loop => exact .inl (LoopStep.of_loopStep h).moment
  case call =>
    obtain ⟨t, hc, rfl⟩ := Option.map_eq_some_iff.mp h
    exact .inl (moment_of_callStep hc)

end EntryDoor.Scheduler
