import EntryDoor.Proofs.Scheduler.HandOff

namespace EntryDoor.Scheduler

open State

variable {p : Policy} {s t : State} {o : Outcome} {seen later : History} {i : CallId} {r : Request}
  {stage : RequestStage} {ce : CallEvent}

-- The loop has nothing in hand, and takes nothing up before it has looked whether to stop.
@[simp] def Phase.Idle : Phase → Prop
  | dormant => True
  | spawned => True
  | polling _ => True
  | carriedOut _ => True
  | leaving => True
  | announced => True
  | ended => True
  | _ => False

theorem Phase.Idle.not_commanding {phase : Phase} (h : phase.Idle) :
    phase.isCommanding = false := by
  cases phase <;> simp_all [Phase.isCommanding]

theorem Phase.Idle.not_accepting {phase : Phase} (h : phase.Idle) : ¬phase.IsAccepting := by
  cases phase <;> simp_all

theorem Phase.Idle.not_resetting {phase : Phase} (h : phase.Idle) : ¬phase.IsResetting := by
  cases phase <;> simp_all

-- A stop was requested, and nothing is left to be finished before it.
structure State.Halted (s : State) : Prop where
  stopping : s.stopping = true
  idle : s.phase.Idle

theorem stopping_of_requestStep (h : s.requestStep p i r stage ce = some t) :
    t.stopping = s.stopping := by
  cases ce
  case drop =>
    simp only [requestStep] at h
    split at h <;> cases h
    rfl
  all_goals cases stage <;> simp only [requestStep, reduceCtorEq] at h
  case advance.created => split at h <;> cases h <;> rfl
  case advance.sending => split at h <;> cases h; rfl
  case advance.accepted => cases r <;> cases h <;> rfl
  case advance.replied => cases h; rfl
  case giveUp.sending => obtain ⟨_, -, rfl⟩ := Option.map_eq_some_iff.mp h; rfl
  case giveUp.queued => obtain ⟨_, -, rfl⟩ := Option.map_eq_some_iff.mp h; rfl

theorem stopping_of_stopStep {stage : StopStage} (hs : s.stopping = true)
    (h : s.stopStep i stage = some t) : t.stopping = true := by
  cases stage <;> simp only [stopStep, Option.ite_none_right_eq_some, reduceCtorEq] at h
  case joining | awaitingExit => obtain ⟨-, h⟩ := h; cases h; exact hs
  case created => cases h; rfl
  all_goals cases h; exact hs

theorem LoopStep.stopping (h : LoopStep p s o) : o.1.stopping = s.stopping := by
  cases h
  case accept r _ _ _ => cases r <;> rfl
  case evaluate =>
    rw [evaluate_eq]
    split <;> rfl
  case answer | timeOut =>
    simp only [State.answered, afterCommand]
    split <;> try rfl
    simp only [reply]
    split <;> rfl
  all_goals rfl

theorem Step.stopping (hs : s.stopping = true) (h : Step p s o) : o.1.stopping = true := by
  cases h
  case request h => exact (stopping_of_requestStep h).trans hs
  case stop h => exact stopping_of_stopStep hs h
  case loop h => exact h.stopping.trans hs
  all_goals exact hs

-- Such a loop goes on to its end, and does nothing else.
theorem LoopStep.halted (hh : s.Halted) (h : LoopStep p s o) :
    o.1.Halted ∧ o.2 = [] ∧ o.1.registers = s.registers := by
  have hs := h.stopping.trans hh.stopping
  have hi := hh.idle
  cases h
  case wait hn => simp [hh.stopping] at hn
  case goOn hn => simp [hh.stopping] at hn
  case begin | leave | yield | announce | finish => exact ⟨⟨hs, trivial⟩, rfl, rfl⟩
  all_goals simp_all

theorem Step.halted (hh : s.Halted) (h : Step p s o) :
    o.1.Halted ∧ o.2 = [] ∧ o.1.registers = s.registers := by
  have hs := h.stopping hh.stopping
  cases h
  case request h =>
    have hl := sparesLoop_of_requestStep h
    exact ⟨⟨hs, hl.phase ▸ hh.idle⟩, rfl, hl.registers⟩
  case stop h =>
    have hl := sparesLoop_of_stopStep h
    exact ⟨⟨hs, hl.phase ▸ hh.idle⟩, rfl, hl.registers⟩
  case spawn => exact ⟨⟨hs, trivial⟩, rfl, rfl⟩
  case loop h => exact h.halted hh
  all_goals exact ⟨⟨hs, hh.idle⟩, rfl, rfl⟩

theorem Run.halted (run : Run p s later t) (hh : s.Halted) :
    later = [] ∧ t.Halted ∧ t.registers = s.registers := by
  induction run
  case refl => exact ⟨rfl, hh, rfl⟩
  case step h ih =>
    have ⟨hl, ht, hr⟩ := ih
    obtain ⟨hu, rfl, hr'⟩ := (Step.of_step h).halted ht
    exact ⟨by rw [hl]; rfl, hu, hr'.trans hr⟩

-- Whether a stop has requested that the loop stops.
@[simp] def StopStage.HasFlagged : StopStage → Prop
  | created => False
  | dropped => False
  | _ => True

-- What the stops know: a loop that they wait for is to stop, and has when one of them has returned.
structure State.StopsKnow (s : State) : Prop where
  flagged : ∀ (i : CallId) stage, s.calls[i]? = some (.stop stage) → stage.HasFlagged →
    s.stopping = true
  finished : ∀ i : CallId, s.calls[i]? = some (.stop .finished) → s.Halted

theorem halted_of_finished (hs : Sound s) (hk : s.StopsKnow) {stage : StopStage}
    (hc : s.calls[i]? = some (.stop stage)) (h : s.stopStep i stage = some t)
    (ht : t.calls[i]? = some (.stop .finished)) : s.Halted := by
  have hi := (List.getElem?_eq_some_iff.mp hc).1
  have hf := hk.flagged i stage hc
  cases stage <;> simp only [stopStep, Option.ite_none_right_eq_some, reduceCtorEq] at h
  -- A loop that nobody has started is never going to do anything.
  case unjoined =>
    cases h
    simp only [List.getElem?_set_self hi] at ht
    split at ht
    case isTrue hu => exact ⟨hf trivial, by simp [hs.unclaimed hu]⟩
    case isFalse => cases ht
  case awaitingExit =>
    obtain ⟨hx, -⟩ := h
    refine ⟨hf trivial, ?_⟩
    cases hp : s.phase <;> simp_all [Phase.hasExited]
  case flagged =>
    cases h
    simp only [List.getElem?_set_self hi] at ht
    split at ht <;> cases ht
  case joining =>
    obtain ⟨-, h⟩ := h
    cases h
    simp [List.getElem?_set_self hi] at ht
  case created =>
    cases h
    simp [List.getElem?_set_self hi] at ht

theorem Step.stopsKnow (hs : Sound s) (hk : s.StopsKnow) (h : Step p s o) : o.1.StopsKnow where
  flagged i stage hi hf := by
    cases h.call hi with
    | kept hi => exact h.stopping (hk.flagged i stage hi hf)
    | invokeStop | dropStop => exact absurd hf id
    | @stop before _ hi ht =>
      by_cases hb : before.HasFlagged
      case pos => exact h.stopping (hk.flagged i before hi hb)
      case neg =>
        cases before <;> simp [stopStep] at hb ht
        exact ht ▸ rfl
  finished i hi := by
    cases h.call hi with
    | kept hi => exact (h.halted (hk.finished i hi)).1
    | stop hi' ht => exact (h.halted (halted_of_finished hs hk hi' ht hi)).1

theorem Run.stopsKnow {schedule : Schedule} {m : Moment}
    (run : Run p (.initial schedule m) seen s) : s.StopsKnow := by
  induction run
  case refl =>
    refine ⟨fun i _ h => ?_, fun i h => ?_⟩
    all_goals simp [State.initial] at h
  case step run h ih => exact (Step.of_step h).stopsKnow run.sound ih

namespace RequestStage

-- The loop has not accepted the request, and if it was turned away that was for a stop.
@[simp] def Unheard : RequestStage → Prop
  | created => True
  | sending _ => True
  | queued _ => True
  | refused cause => cause = .stopped
  | dropped => True
  | _ => False

-- The most steps that its caller can still make.
@[simp] def stepsLeft : RequestStage → Nat
  | created => 3
  | sending _ => 2
  | queued _ => 1
  | _ => 0

end RequestStage

-- A caller that has to wait gives up, and for no other cause than the stop.
theorem unheard_of_requestStep (hs : s.stopping = true) (hu : stage.Unheard)
    (h : s.requestStep p i r stage ce = some t) :
    ∃ stage' : RequestStage, t.calls = s.calls.set i (.request r stage') ∧ stage'.Unheard ∧
      stage'.stepsLeft < stage.stepsLeft := by
  cases ce
  case drop =>
    simp only [requestStep] at h
    split at h <;> cases h
    case isFalse ho =>
      refine ⟨.dropped, rfl, trivial, ?_⟩
      cases stage <;> simp_all [RequestStage.isOver]
  all_goals cases stage <;> simp [requestStep, giveUpCause?, hs] at h hu
  case advance.created => exact ⟨.refused .stopped, h ▸ rfl, rfl, by simp⟩
  case advance.sending d => exact ⟨.queued d, h.2 ▸ rfl, trivial, by simp⟩
  case giveUp.sending => exact ⟨.refused .stopped, h ▸ rfl, rfl, by simp⟩
  case giveUp.queued => exact ⟨.refused .stopped, h ▸ rfl, rfl, by simp⟩

theorem Step.unheard (hh : s.Halted) (h : Step p s o)
    (hu : ∀ r stage, s.calls[i]? = some (.request r stage) → stage.Unheard)
    (hi : o.1.calls[i]? = some (.request r stage)) : stage.Unheard := by
  have hc := h.call hi
  rw [(h.halted hh).2.1] at hc
  cases hc with
  | kept hi => exact hu r stage hi
  | invoke => trivial
  | request hc ht =>
    obtain ⟨stage', hcalls, hu', -⟩ := unheard_of_requestStep hh.stopping (hu _ _ hc) ht
    rw [hcalls, List.getElem?_set_self (List.getElem?_eq_some_iff.mp hc).1] at hi
    cases hi
    exact hu'
  -- Nobody waits for the answer to a buzz any more.
  | reply hc => exact absurd (hu _ _ hc) id
  | accept ha => cases ha

theorem Run.unheard (run : Run p s later t) (hh : s.Halted)
    (hu : ∀ r stage, s.calls[i]? = some (.request r stage) → stage.Unheard) :
    ∀ r stage, t.calls[i]? = some (.request r stage) → stage.Unheard := by
  induction run
  case refl => exact hu
  case step run h ih =>
    have hh := (run.halted hh).2.1
    exact fun _ _ hi => (Step.of_step h).unheard hh ih hi

-- The caller of such a request can be told at any time.
theorem exists_step_of_unheard (hs : s.stopping = true)
    (hi : s.calls[i]? = some (.request r stage)) (hu : stage.Unheard) (ho : stage.isOver = false) :
    ∃ ce t, s.callStep p i ce = some t ∧ t.result? i = some (.error (.scheduler .stopped)) := by
  have hlt := (List.getElem?_eq_some_iff.mp hi).1
  have hstep (ce) : s.callStep p i ce = s.requestStep p i r stage ce := by
    simp [callStep, hi]
  have hresult (u : State) (hu : u.calls = s.calls.set i (.request r (.refused .stopped))) :
      u.result? i = some (.error (.scheduler .stopped)) := by
    rw [State.result?, hu, List.getElem?_set_self hlt]
    rfl
  have hgive (d) : s.giveUpCause? d = some .stopped := if_pos (.inl hs)
  cases stage <;> simp only [RequestStage.Unheard, RequestStage.isOver, reduceCtorEq] at hu ho
  case created => exact ⟨.advance, _, (hstep .advance).trans (if_pos hs), hresult _ rfl⟩
  case sending d =>
    have ht := (hstep .giveUp).trans (congrArg (Option.map _) (hgive d))
    exact ⟨.giveUp, _, ht, hresult _ rfl⟩
  case queued d =>
    have ht := (hstep .giveUp).trans (congrArg (Option.map _) (hgive d))
    exact ⟨.giveUp, _, ht, hresult _ rfl⟩

-- A request that is not accepted any more: its caller is told that the scheduler has stopped, unless
-- it drops the call.
structure TurnedAway (p : Policy) (s : State) (i : CallId) (stage : RequestStage) : Prop where
  result : stage.isOver → stage = .dropped ∨ stage = .refused .stopped
  ends : stage.isOver = false →
    ∃ ce t, s.callStep p i ce = some t ∧ t.result? i = some (.error (.scheduler .stopped))
  -- Whatever else the caller does brings it closer to that.
  nears : ∀ ce t, s.callStep p i ce = some t → ∃ r stage',
    t.calls[i]? = some (.request r stage') ∧ stage'.stepsLeft < stage.stepsLeft

theorem turnedAway_of_unheard (hs : s.stopping = true) (hi : s.calls[i]? = some (.request r stage))
    (hu : stage.Unheard) : TurnedAway p s i stage := by
  refine ⟨fun ho => ?_, exists_step_of_unheard hs hi hu, fun ce t h => ?_⟩
  case refine_1 => cases stage <;> simp_all [RequestStage.isOver]
  case refine_2 =>
    have h : s.requestStep p i r stage ce = some t := by simpa [callStep, hi] using h
    obtain ⟨stage', ht, -, hl⟩ := unheard_of_requestStep hs hu h
    exact ⟨r, stage', by rw [ht, List.getElem?_set_self (List.getElem?_eq_some_iff.mp hi).1], hl⟩

-- What holds once a stop has returned.
structure StopReturned (p : Policy) (schedule : Schedule) (seen : History) (s : State) : Prop where
  idle : s.phase.isCommanding = false
  calm : s.registers.resetting = false
  registers : s.registers = seen.replay p { schedule }
  -- Nothing is seen any more, and nothing changes in what is remembered.
  still : ∀ later t, Run p s later t →
    later = [] ∧ t.registers = s.registers ∧ t.phase.isCommanding = false
  -- Requests that are made later, and those that were under way and not accepted.
  refused : ∀ (i : CallId), (∀ r stage, s.calls[i]? = some (.request r stage) →
      stage.isOver = false ∧ i ∉ seen.callers) →
    ∀ later t, Run p s later t → ∀ r stage, t.calls[i]? = some (.request r stage) →
      TurnedAway p t i stage

theorem Run.stopReturned {schedule : Schedule} {m : Moment}
    (run : Run p (.initial schedule m) seen s) (hi : s.calls[i]? = some (.stop .finished)) :
    StopReturned p schedule seen s := by
  have hh := run.stopsKnow.finished i hi
  have ha := hh.idle.not_accepting
  refine ⟨hh.idle.not_commanding, ?_, ?_, fun later t hl => ?_,
    fun j hj later t hl r stage ht => ?_⟩
  case refine_1 => exact run.sound.registers_calm ha hh.idle.not_resetting
  case refine_2 => rw [← settled_of_not_accepting ha, run.settled_eq_replay]
  case refine_3 =>
    have ⟨hn, ht, hr⟩ := hl.halted hh
    exact ⟨hn, hr, ht.idle.not_commanding⟩
  case refine_4 =>
    have hu : ∀ r stage, s.calls[j]? = some (.request r stage) → stage.Unheard := by
      intro r stage hc
      have ⟨ho, hn⟩ := hj r stage hc
      have hm (h : (j, r) ∈ seen.accepted) : False := hn (History.mem_callers.mpr ⟨r, h⟩)
      have hk := run.agreed.call j _ hc
      cases stage <;> simp only [RequestStage.isOver, reduceCtorEq] at ho
      case accepted => exact hm hk
      case replied => exact hm hk.1
      all_goals trivial
    exact turnedAway_of_unheard (hl.halted hh).2.1.stopping ht (hl.unheard hh hu r stage ht)

-- A stop comes in the middle of a hard reset, and another one after it that returns first. A request
-- has been waiting all that time.
def amidReset : List Event :=
  [.invoke .start, .call 0 .advance, .call 0 .advance, .call 0 .advance, .loop .advance,
    .call 0 .advance, .loop .advance, .invoke (.request .reset), .call 1 .advance,
    .call 1 .advance, .loop (.wake .request), .loop .advance, .invoke (.request .recompute),
    .call 2 .advance, .call 2 .advance, .invoke .stop, .call 3 .advance, .call 3 .advance,
    .invoke .stop, .call 4 .advance, .call 4 .advance, .call 4 .advance,
    .loop (.answer (.ok ())), .pass (.ofSeconds 2) (.ofSeconds 2), .loop .advance,
    .loop (.answer (.error .offline)), .pass (.ofSeconds 2) (.ofSeconds 4), .loop .advance,
    .loop (.answer (.ok ())), .loop .advance, .loop .advance, .loop .advance, .call 4 .advance]

-- How far call `i` has come, if it is a stop.
def State.stopStage? (s : State) (i : CallId) : Option StopStage :=
  match s.calls[i]? with
  | some (.stop stage) => some stage
  | _ => none

theorem calls_of_stopStage? {stage : StopStage} (h : s.stopStage? i = some stage) :
    s.calls[i]? = some (.stop stage) := by
  unfold stopStage? at h
  split at h <;> cases h
  assumption

theorem stopReturned_amidReset : ∃ seen s, StopReturned {} closed seen s ∧ seen.callers = [1] ∧
    seen.length = 7 ∧ s.calls[2]?.map (·.isOver) = some false ∧ s.stopStage? 3 = some .joining := by
  have h : ∃ x ∈ (State.initial closed ⟨0, .ofSeconds 0⟩).follow {} (fun _ _ => True) amidReset,
      x.2.stopStage? 4 = some .finished ∧ x.1.callers = [1] ∧ x.1.length = 7 ∧
        x.2.calls[2]?.map (·.isOver) = some false ∧ x.2.stopStage? 3 = some .joining := by
    decide +kernel
  obtain ⟨x, hx, h4, h⟩ := h
  have run := (RunWhere.of_follow hx).run
  exact ⟨x.1, x.2, run.stopReturned (calls_of_stopStage? h4), h⟩

end EntryDoor.Scheduler
