import EntryDoor.Proofs.Scheduler.Buzz
import EntryDoor.Proofs.Scheduler.Prompt.Loop

namespace EntryDoor.Scheduler

open State

variable {p : Policy} {s t u : State} {o : Outcome} {e : Event} {seen later : History}
  {schedule : Schedule} {m : Moment} {i : CallId} {r : Request} {stage stage' : RequestStage} {ce : CallEvent}
  {wake d : Instant} {cause : SchedulerError} {result : Except Failure Unit}

-- Why a caller is told that its request is not accepted.
def TurnsAway (cause : SchedulerError) : Prop :=
  cause = .stopped ∨ cause = .requestTimedOut

theorem State.turnsAway_of_giveUpCause? (h : s.giveUpCause? d = some cause) : TurnsAway cause := by
  simp only [giveUpCause?] at h
  split at h
  case isTrue => cases h; exact .inl rfl
  case isFalse => split at h <;> cases h; exact .inr rfl

theorem RequestStep.turnsAway (h : RequestStep p s i r stage ce t) :
    ∃ stage', t.calls = s.calls.set i (.request r stage') ∧
      ∀ cause, stage' = .refused cause → TurnsAway cause := by
  cases h
  case turnAway => exact ⟨_, rfl, fun _ h => by cases h; exact .inl rfl⟩
  case leaveLine h | leaveQueue h =>
    exact ⟨_, rfl, fun _ hc => by cases hc; exact turnsAway_of_giveUpCause? h⟩
  all_goals exact ⟨_, rfl, fun _ => by simp⟩

theorem Run.turnsAway (run : Run p (.initial schedule m) seen s)
    (hi : s.calls[i]? = some (.request r (.refused cause))) : TurnsAway cause := by
  induction run generalizing i r cause
  case refl => simp [State.initial] at hi
  case step h ih =>
    cases (Step.of_step h).call hi with
    | kept hi => exact ih hi
    | request hc hr =>
      obtain ⟨stage', ht, ha⟩ := (RequestStep.of_requestStep hr).turnsAway
      have hlt := (List.getElem?_eq_some_iff.mp hc).1
      rw [ht, List.getElem?_set_self hlt] at hi
      cases hi
      exact ha cause rfl

-- The commands of a hard reset that are still to be sent.
def Phase.left : Phase → List Command
  | commanding (.reset rest _) .. => rest
  | settling _ rest _ => rest
  | _ => []

-- A command to buzz is sent for a request only.
def Occurrence.Asked : Occurrence → Prop
  | called purpose .buzz => ∃ i wake, purpose = .buzz i wake
  | _ => True

theorem State.evaluate_asked : ∀ x ∈ (s.evaluate p).2, x.Asked := by
  rw [evaluate_eq]
  cases s.status.state <;> split <;> simp [Occurrence.Asked, DoorState.command]

theorem LoopStep.asked (h : LoopStep p s o) (hn : .buzz ∉ s.phase.left) :
    .buzz ∉ o.1.phase.left ∧ ∀ x ∈ o.2, x.Asked := by
  cases h
  case accept r _ _ _ => cases r <;> simp [carryOut, command, Phase.left, Occurrence.Asked]
  case evaluate =>
    refine ⟨?_, evaluate_asked⟩
    rcases s.evaluate_phase (p := p) with h | ⟨_, h⟩ <;> simp [h, Phase.left]
  case settle c rest _ hp _ =>
    rw [hp, Phase.left, List.mem_cons, not_or] at hn
    cases c <;> simp_all [command, Phase.left, Occurrence.Asked]
  case answer purpose _ _ _ hp | timeOut purpose _ _ hp _ =>
    rw [hp] at hn
    rcases purpose with _ | _ | ⟨_ | _, _⟩ <;>
      simp_all [State.answered, afterCommand, Phase.left, Occurrence.Asked]
  all_goals simp_all [Phase.left]

theorem Step.asked (h : Step p s o) (hn : .buzz ∉ s.phase.left) :
    .buzz ∉ o.1.phase.left ∧ ∀ x ∈ o.2, x.Asked := by
  have hnil : ∀ x ∈ ([] : List Occurrence), x.Asked := by simp
  cases h
  case loop h => exact h.asked hn
  case request h => exact ⟨(sparesLoop_of_requestStep h).phase ▸ hn, hnil⟩
  case stop h => exact ⟨(sparesLoop_of_stopStep h).phase ▸ hn, hnil⟩
  case spawn => exact ⟨by simp [Phase.left], hnil⟩
  all_goals exact ⟨hn, hnil⟩

theorem Run.asked (run : Run p (.initial schedule m) seen s) :
    .buzz ∉ s.phase.left ∧ ∀ x ∈ seen, x.2.Asked := by
  induction run
  case refl => exact ⟨by simp [State.initial, Phase.left], by simp⟩
  case step h ih =>
    obtain ⟨hn, hseen⟩ := ih
    obtain ⟨hn, hnow⟩ := (Step.of_step h).asked hn
    refine ⟨hn, fun x hx => ?_⟩
    rcases List.mem_append.mp hx with hx | hx
    case inl => exact hseen x hx
    case inr =>
      obtain ⟨y, hy, rfl⟩ := List.mem_map.mp hx
      exact hnow y hy

-- What is accepted is what the caller has asked for.
theorem Run.request_of_accepted (run : Run p (.initial schedule m) seen s) (ha : (i, r) ∈ seen.accepted) :
    ∃ stage, s.calls[i]? = some (.request r stage) := by
  induction run generalizing i r
  case refl => cases ha
  case step run h ih =>
    have hc := (Step.of_step h).calls
    rw [History.accepted_append, History.accepted_map, List.mem_append] at ha
    rcases ha with ha | ha
    case inl =>
      obtain ⟨stage, hi⟩ := ih ha
      exact hc.request_persists hi
    case inr =>
      generalize List.filterMap _ _ = now at hc ha
      cases hc
      case loop hc =>
        cases hc
        case accept hi ht =>
          cases List.mem_singleton.mp ha
          exact ⟨.accepted, by rw [ht, List.getElem?_set_self (List.getElem?_eq_some_iff.mp hi).1]⟩
        all_goals cases ha
      all_goals cases ha

-- The door is called for a buzz if and only if the buzz is accepted.
theorem Run.begun_eq_nil_iff (run : Run p (.initial schedule m) seen s)
    (hi : s.calls[i]? = some (.request .buzz stage)) : seen.begun i = [] ↔ i ∉ seen.callers := by
  rw [← List.length_eq_zero_iff, History.length_begun, run.buzzed_eq_buzzers, List.count_eq_zero]
  refine not_congr ?_
  rw [History.mem_callers, History.buzzers]
  simp only [List.mem_map, List.mem_filter]
  refine ⟨?_, ?_⟩
  case refine_1 =>
    rintro ⟨⟨_, r⟩, ⟨ha, -⟩, rfl⟩
    exact ⟨r, ha⟩
  case refine_2 =>
    rintro ⟨r, ha⟩
    obtain ⟨stage', hi'⟩ := run.request_of_accepted ha
    cases hi.symm.trans hi'
    exact ⟨_, ⟨ha, rfl⟩, rfl⟩

-- How far the buzz of caller `i` has come: it was never accepted, the door is being called for it, or that call has
-- ended.
inductive BuzzFate (p : Policy) (seen : History) (s : State) (i : CallId) : RequestStage → Prop
  | unheard {stage : RequestStage} (hn : i ∉ seen.callers) (hb : seen.begun i = [])
      (hr : ∀ result, stage.result? = some result →
        ∃ cause : SchedulerError, TurnsAway cause ∧ result = .error (.scheduler cause)) :
      BuzzFate p seen s i stage
  | underway {stage : RequestStage} {m : Moment} {wake : Instant} (ha : i ∈ seen.callers)
      (hb : seen.begun i = [m]) (he : seen.ended i = [])
      (hp : s.phase = .commanding (.buzz i wake) .buzz (m.instant.after p.commandTimeout))
      (h : stage = .accepted ∨ stage = .dropped) : BuzzFate p seen s i stage
  | ended {stage : RequestStage} {m m' : Moment} {result : Except Failure Unit}
      (ha : i ∈ seen.callers) (hb : seen.begun i = [m]) (he : seen.ended i = [(m', result)])
      (hr : BuzzResult p m m' result)
      (h : stage = .replied result ∨ stage = .done result ∨ stage = .dropped) :
      BuzzFate p seen s i stage

theorem Run.buzzFate (run : Run p (.initial schedule m) seen s)
    (hi : s.calls[i]? = some (.request .buzz stage)) : BuzzFate p seen s i stage := by
  have hh := run.handledAll.request i _ _ hi
  have hb := run.begun_eq_nil_iff hi
  have hc (h : seen.begun i ≠ []) : i ∈ seen.callers := Classical.not_not.mp fun hn => h (hb.mpr hn)
  generalize hsent : seen.begun i = sent, hgot : seen.ended i = got at hh
  rw [hsent] at hb hc
  cases hh
  case unheard h hr hd =>
    refine .unheard (hb.mp rfl) hsent fun result hres => ?_
    cases stage <;> simp only [RequestStage.result?, Option.some.injEq, reduceCtorEq] at hres
    case refused cause => exact ⟨cause, run.turnsAway hi, hres.symm⟩
    case done => exact absurd rfl (hd _)
  case other hr _ => exact absurd rfl hr
  case underway hp h => exact .underway (hc (by simp)) hsent hgot hp h
  case ended hr h => exact .ended (hc (by simp)) hsent hgot hr h

-- What a caller and the clock can do without the door and without other callers.
def Event.Alone (i : CallId) : Event → Prop
  | .pass .. => True
  | .call j .advance => j = i
  | .call j .giveUp => j = i
  | .loop .timeOut => True
  | _ => False

-- Caller `i` gets its result without the door and without other callers.
def State.Answers (p : Policy) (s : State) (i : CallId) : Prop :=
  ∃ later t result, RunWhere (fun _ e => e.Alone i) p s later t ∧ t.result? i = some result

namespace State.Answers

theorem step {now : List Occurrence} (h : t.Answers p i) (ha : e.Alone i)
    (hs : s.step p e = some (t, now)) : s.Answers p i := by
  obtain ⟨later, u, result, run, hr⟩ := h
  exact ⟨_, u, result, (RunWhere.single ha hs).trans run, hr⟩

theorem told (hi : s.calls[i]? = some (.request r stage)) (hr : stage.result? = some result) :
    s.Answers p i :=
  ⟨[], s, result, .refl, by rw [result?, hi]; exact hr⟩

-- Whatever is due at `d` happens once the clock shows `d`.
theorem passing (d : Instant) (h : ∀ t : State, t.calls = s.calls → t.phase = s.phase →
    d ≤ t.moment.instant → t.Answers p i) : s.Answers p i := by
  have ht := h { s with moment := ⟨s.moment.instant + d, s.moment.clock⟩ } rfl rfl
    (Nat.le_add_left d _)
  exact ht.step (e := .pass ⟨d⟩ s.moment.clock) trivial rfl

theorem call (ce : CallEvent) (ha : (Event.call i ce).Alone i)
    (hi : s.calls[i]? = some (.request r stage)) (hs : s.requestStep p i r stage ce = some t)
    (ht : t.calls = s.calls.set i (.request r stage'))
    (h : t.calls[i]? = some (.request r stage') → t.Answers p i) : s.Answers p i := by
  have hs : s.step p (.call i ce) = some (t, []) := by simp [State.step, callStep, hi, hs]
  refine (h ?_).step ha hs
  rw [ht, List.getElem?_set_self (List.getElem?_eq_some_iff.mp hi).1]

-- A caller that waits gives up when its time is over.
theorem waits (hi : s.calls[i]? = some (.request r stage))
    (hw : stage = .sending d ∨ stage = .queued d) : s.Answers p i := by
  refine passing d fun t hcalls _ hd => ?_
  rw [← hcalls] at hi
  obtain ⟨cause, hc⟩ : ∃ cause, t.giveUpCause? d = some cause := by
    simp only [giveUpCause?, if_pos hd]
    split <;> exact ⟨_, rfl⟩
  have hs : ∃ u, t.requestStep p i r stage .giveUp = some u ∧
      u.calls = t.calls.set i (.request r (.refused cause)) := by
    rcases hw with rfl | rfl <;> simp [requestStep, hc, setStage]
  obtain ⟨u, hs, hu⟩ := hs
  exact call .giveUp rfl hi hs hu fun hi => told hi rfl

theorem replied (hi : s.calls[i]? = some (.request r (.replied result))) : s.Answers p i :=
  call .advance rfl hi rfl rfl fun hi => told hi rfl

-- The door is given up for a caller when its time is over.
theorem buzzes (hi : s.calls[i]? = some (.request .buzz .accepted))
    (hp : s.phase = .commanding (.buzz i wake) .buzz d) : s.Answers p i := by
  refine passing d fun t hcalls hphase hd => ?_
  rw [← hcalls] at hi
  have hs : t.step p (.loop .timeOut) =
      some (t.answered p (.error (.scheduler (.commandTimedOut .buzz))) (.buzz i wake) .buzz) := by
    simp only [State.step, loopStep, hphase, hp, if_pos hd]
  have hr : (t.afterCommand p (.error (.scheduler (.commandTimedOut .buzz))) (.buzz i wake)).calls[i]? =
      some (.request .buzz (.replied (.error (.scheduler (.commandTimedOut .buzz))))) := by
    simp only [afterCommand, reply, hi, setStage]
    exact List.getElem?_set_self (List.getElem?_eq_some_iff.mp hi).1
  exact step (e := .loop .timeOut) (replied hr) trivial hs

end State.Answers

-- Whoever has not dropped its buzz gets a result: it is turned away in time, or the door is given up in time.
theorem Run.answers (run : Run p (.initial schedule m) seen s)
    (hi : s.calls[i]? = some (.request .buzz stage)) (hd : stage ≠ .dropped) : s.Answers p i := by
  cases stage
  case created =>
    cases hs : s.stopping with
    | true =>
      have hr : s.requestStep p i .buzz .created .advance =
          some (s.setStage i .buzz (.refused .stopped)) := by simp [requestStep, hs]
      exact .call .advance rfl hi hr rfl fun hi => .told hi rfl
    | false =>
      have hr : s.requestStep p i .buzz .created .advance =
          some { s.setStage i .buzz (.sending (s.moment.instant.after p.requestTimeout)) with
            line := s.line ++ [i] } := by simp [requestStep, hs]
      exact .call .advance rfl hi hr rfl fun hi => .waits hi (.inl rfl)
  case sending => exact .waits hi (.inl rfl)
  case queued => exact .waits hi (.inr rfl)
  case accepted =>
    have hh := run.handledAll.request i _ _ hi
    generalize seen.begun i = sent, seen.ended i = got at hh
    cases hh
    case unheard h _ _ => exact absurd rfl h
    case other hr _ => exact absurd rfl hr
    case underway hp _ => exact .buzzes hi hp
    case ended h => simp at h
  case replied => exact .replied hi
  case refused | done => exact .told hi rfl
  case dropped => exact absurd rfl hd

-- The loop is busy with the request of caller `i`, a buzz if the door is called for it, and evaluates again at `wake`.
@[simp] def Phase.Serves (i : CallId) (wake : Instant) : Phase → Prop
  | accepting j due _ => j = i ∧ due = wake
  | commanding (.buzz j due) .. => j = i ∧ due = wake
  | _ => False

-- The loop is busy with the buzz of caller `i`.
def State.Serves (s : State) (i : CallId) (wake : Instant) : Prop :=
  s.phase.Serves i wake ∧ ∃ stage, s.calls[i]? = some (.request .buzz stage)

-- What comes of the buzz of caller `i`, up to when the loop goes back to waiting for what it waited for before.
structure Spares (i : CallId) (wake : Instant) (s t : State) (later : History) : Prop where
  registers : t.registers = s.registers
  findings : later.findings = []
  phase : t.Serves i wake ∨ t.phase = .polling wake

theorem LoopStep.spares (h : LoopStep p s o) (hs : s.Serves i wake) :
    Spares i wake s o.1 (o.2.map (s.moment, ·)) := by
  obtain ⟨hp, stage, hi⟩ := hs
  cases h
  case accept hq hc =>
    rw [hq] at hp
    obtain ⟨rfl, rfl⟩ := hp
    cases hi.symm.trans hc
    refine ⟨rfl, rfl, .inl ⟨⟨rfl, rfl⟩, .accepted, ?_⟩⟩
    exact List.getElem?_set_self (List.getElem?_eq_some_iff.mp hi).1
  case withdraw hq hc hn =>
    rw [hq] at hp
    obtain ⟨rfl, rfl⟩ := hp
    cases hi.symm.trans hc
    exact ⟨rfl, rfl, .inr rfl⟩
  case answer purpose _ _ _ hq | timeOut purpose _ _ hq _ =>
    rw [hq] at hp
    cases purpose
    case buzz =>
      obtain ⟨rfl, rfl⟩ := hp
      exact ⟨reply_registers, rfl, .inr rfl⟩
    all_goals exact hp.elim
  all_goals simp_all

-- Whatever happens to the callers meanwhile, the one of the buzz included.
theorem Step.spares (h : Step p s o) (hso : Sound s) (hs : s.Serves i wake) :
    Spares i wake s o.1 (o.2.map (s.moment, ·)) := by
  have hc : ∃ stage, o.1.calls[i]? = some (.request .buzz stage) := by
    obtain ⟨_, _, hi⟩ := hs
    exact h.calls.request_persists hi
  cases h
  case loop h => exact h.spares hs
  case request h =>
    have hl := sparesLoop_of_requestStep h
    exact ⟨hl.registers, rfl, .inl ⟨hl.phase ▸ hs.1, hc⟩⟩
  case stop h =>
    have hl := sparesLoop_of_stopStep h
    exact ⟨hl.registers, rfl, .inl ⟨hl.phase ▸ hs.1, hc⟩⟩
  -- The loop is not started twice.
  case spawn j hj =>
    have hd := hso.claimed j hj
    simp [State.Serves, hd] at hs
  all_goals exact ⟨rfl, rfl, .inl ⟨hs.1, hc⟩⟩

theorem RunWhere.spares (run : RunWhere (fun u _ => u.Serves i wake) p s later t) (hso : Sound s)
    (hs : s.Serves i wake) : Spares i wake s t later := by
  induction run
  case refl => exact ⟨rfl, rfl, .inl hs⟩
  case step run ha h ih =>
    have hst := (Step.of_step h).spares (run.run.preserves (fun h hs => h.step (Step.of_step hs)) hso) ha
    refine ⟨hst.registers.trans ih.registers, ?_, hst.phase⟩
    rw [History.findings_append, ih.findings, hst.findings]
    rfl

-- The loop takes up a buzz without leaving a trace.
theorem State.spares_receive (hp : s.phase = .waiting wake) (hs : s.slot = some i)
    (hi : s.calls[i]? = some (.request .buzz stage)) :
    ∃ t, s.step p (.loop (.wake .request)) = some (t, []) ∧ t.Serves i wake ∧
      Spares i wake s t [] := by
  have hr : s.step p (.loop (.wake .request)) =
      some ({ s with slot := none, phase := .accepting i wake s.registers }, []) := by
    simp [State.step, loopStep, hp, wakeUp, receive, hs, hi, Registers.install]
  have ht : State.Serves { s with slot := none, phase := .accepting i wake s.registers } i wake :=
    ⟨⟨rfl, rfl⟩, stage, hi⟩
  exact ⟨_, hr, ht, rfl, rfl, .inl ht⟩

-- A buzz is exact for its caller and transparent to everybody else.
structure Transparent (p : Policy) (schedule : Schedule) (m : Moment) (seen : History) (s : State) :
    Prop where
  -- The door is told to buzz for callers only.
  asked : ∀ x ∈ seen, x.2.Asked
  -- The door is called once if the buzz is accepted, and the caller gets what that call comes to.
  fate : ∀ i stage, s.calls[i]? = some (.request .buzz stage) → BuzzFate p seen s i stage
  -- Neither the door nor other callers can keep a caller from getting a result.
  answers : ∀ i stage, s.calls[i]? = some (.request .buzz stage) → stage ≠ .dropped → s.Answers p i
  -- The loop takes up a buzz with everything in place that was there before.
  takes : ∀ i stage wake, s.phase = .waiting wake → s.slot = some i →
    s.calls[i]? = some (.request .buzz stage) →
    ∃ t, s.step p (.loop (.wake .request)) = some (t, []) ∧ t.Serves i wake ∧ Spares i wake s t []
  -- This is still so when the loop is done with it, whatever the door has answered and wherever the caller is by then.
  spares : ∀ i wake, s.Serves i wake → ∀ later t,
    RunWhere (fun u _ => u.Serves i wake) p s later t → Spares i wake s t later
  -- What else is asked of the scheduler decides when the door is locked and unlocked. This run is one among all that
  -- differ from it in their buzzes, or have none.
  moves : ∀ w inputs,
    Driven (fun u e => e.Apart w p u) p (.initial schedule m) inputs seen s → s.AtRest w →
    ∀ seen' s', Driven (fun u e => e.Apart w p u) p (.initial schedule m) inputs seen' s' →
      s'.AtRest w → s'.moment.instant = s.moment.instant → seen'.moves = seen.moves

theorem Run.transparent (run : Run p (.initial schedule m) seen s) :
    Transparent p schedule m seen s where
  asked := run.asked.2
  fate i stage hi := run.buzzFate hi
  answers i stage hi hd := run.answers hi hd
  takes i stage wake hp hs hi := spares_receive hp hs hi
  spares i wake hs later t hl := hl.spares run.sound hs
  moves w inputs hd hr seen' s' hd' hr' hn := by
    have hg := hr.next_eq_none (p := p) hd.run.queued hd.run.stopsKnow (Nat.lt_succ_self _) nofun
    have hg' := hr'.next_eq_none (p := p) hd'.run.queued hd'.run.stopsKnow (Nat.lt_succ_self _) nofun
    exact hd'.follows.1.deterministic hd.follows.1 hg' hg hn

-- The clocks agree and the door obeys, but its buzzer is broken.
def World.brokenBuzzer : World where
  clock t := .ofSeconds (t / 1000000000)
  ring := id
  door _ c := if c = .buzz then .error .offline else .ok ()

-- Whether the same is asked for at the same times, as far as it can be decided.
def sameInputs : List (Instant × Stimulus) → List (Instant × Stimulus) → Bool
  | [], [] => true
  | (t, .request .recompute) :: rest, (t', .request .recompute) :: rest' =>
    t = t' && sameInputs rest rest'
  | (t, .request .reset) :: rest, (t', .request .reset) :: rest' => t = t' && sameInputs rest rest'
  | (t, .start) :: rest, (t', .start) :: rest' => t = t' && sameInputs rest rest'
  | _, _ => false

theorem eq_of_sameInputs {inputs inputs' : List (Instant × Stimulus)} (h : sameInputs inputs inputs') :
    inputs = inputs' := by
  fun_induction sameInputs inputs inputs' <;> simp_all

namespace Event

def begin (i : CallId) : List Event :=
  [.invoke .start, .call i .advance, .call i .advance, .call i .advance, .call i .advance,
    .loop .advance, .loop .advance]

-- An evaluation with a command, up to when the loop waits again.
def evaluation : List Event :=
  [.loop .advance, .loop (.answer (.ok ())), .loop .advance, .loop .advance]

def wait (elapsed now : Nat) : Event :=
  .pass (.ofSeconds elapsed) (.ofSeconds now)

end Event

-- Somebody is buzzed in before a hard reset. During the reset one caller asks for a buzz and is gone when its turn
-- comes; two more wait behind it, one of them for another buzz.
def buzzesAroundReset : List Event :=
  Event.begin 0 ++ .loop (.wake .timer) :: Event.evaluation ++
  [.wait 1 1, .invoke (.request .buzz), .call 1 .advance, .call 1 .advance,
    .loop (.wake .request), .loop .advance, .loop (.answer (.error .offline)), .call 1 .advance,
    .loop .advance, .wait 1 2, .invoke (.request .reset), .call 2 .advance, .call 2 .advance,
    .loop (.wake .request), .loop .advance, .loop (.answer (.ok ())), .call 2 .advance, .wait 1 3,
    .invoke (.request .buzz), .call 3 .advance, .call 3 .advance, .invoke (.request .recompute),
    .call 4 .advance, .wait 1 4, .loop .advance, .loop (.answer (.ok ())), .call 3 .drop,
    .invoke (.request .buzz), .call 5 .advance, .wait 2 6, .loop .advance,
    .loop (.answer (.ok ())), .loop .advance] ++ Event.evaluation ++
  [.loop (.wake .request), .call 4 .advance, .loop .advance, .loop .advance,
    .loop (.wake .request), .call 5 .advance, .loop .advance, .call 4 .advance, .loop .advance] ++
  Event.evaluation ++
  [.loop (.wake .request), .loop .advance, .loop (.answer (.error .offline)), .call 5 .advance,
    .loop .advance]

-- The same without the buzzes.
def onlyReset : List Event :=
  Event.begin 0 ++ .loop (.wake .timer) :: Event.evaluation ++
  [.wait 2 2, .invoke (.request .reset), .call 1 .advance, .call 1 .advance, .loop (.wake .request),
    .loop .advance, .loop (.answer (.ok ())), .call 1 .advance, .wait 1 3,
    .invoke (.request .recompute), .call 2 .advance, .call 2 .advance, .wait 1 4, .loop .advance,
    .loop (.answer (.ok ())), .wait 2 6, .loop .advance, .loop (.answer (.ok ())),
    .loop .advance] ++ Event.evaluation ++
  [.loop (.wake .request), .loop .advance, .call 2 .advance, .loop .advance] ++ Event.evaluation

theorem transparent_buzzesAroundReset : ∃ inputs seen s seen' s',
    Transparent {} closed ⟨0, .ofSeconds 0⟩ seen s ∧
    Driven (fun u e => e.Apart .brokenBuzzer {} u) {} (.initial closed ⟨0, .ofSeconds 0⟩) inputs seen s ∧
    Driven (fun u e => e.Apart .brokenBuzzer {} u) {} (.initial closed ⟨0, .ofSeconds 0⟩) inputs seen' s' ∧
    seen.buzzed = [1, 5] ∧ seen'.buzzed = [] ∧ seen.moves.length = 6 ∧
    seen'.moves = seen.moves := by
  have h : ∃ x ∈ (State.initial closed ⟨0, .ofSeconds 0⟩).drive {}
        (fun u e => e.Apart .brokenBuzzer {} u) buzzesAroundReset,
      ∃ y ∈ (State.initial closed ⟨0, .ofSeconds 0⟩).drive {} (fun u e => e.Apart .brokenBuzzer {} u) onlyReset,
        sameInputs y.1 x.1 ∧ x.2.2.AtRest .brokenBuzzer ∧ y.2.2.AtRest .brokenBuzzer ∧
        y.2.2.moment.instant = x.2.2.moment.instant ∧ x.2.1.buzzed = [1, 5] ∧ y.2.1.buzzed = [] ∧
        x.2.1.moves.length = 6 := by
    decide +kernel
  obtain ⟨x, hx, y, hy, hi, hr, hr', hn, hb, hb', hm⟩ := h
  have run := Driven.of_drive hx
  have run' := eq_of_sameInputs hi ▸ Driven.of_drive hy
  have ht := run.run.transparent
  exact ⟨x.1, x.2.1, x.2.2, y.2.1, y.2.2, ht, run, run', hb, hb', hm,
    ht.moves _ _ run hr _ _ run' hr' hn⟩

-- The loop starts with a buzz in the queue and a request to recompute behind it. It takes up the buzz, evaluates
-- because it has not done so yet, and once more for the other request.
def buzzBeforeStart : List Event :=
  [.invoke (.request .buzz), .call 0 .advance, .call 0 .advance, .wait 1 1,
    .invoke (.request .recompute), .call 1 .advance, .wait 1 2] ++ Event.begin 2 ++
  [.loop (.wake .request), .loop .advance, .loop (.answer (.error .offline)), .call 0 .advance,
    .loop .advance, .loop (.wake .timer)] ++ Event.evaluation ++
  [.call 1 .advance, .loop (.wake .request), .loop .advance, .call 1 .advance, .loop .advance] ++
  Event.evaluation

-- Without the buzz it takes up the other request at once, and evaluates for it alone.
def onlyRecompute : List Event :=
  [.wait 1 1, .invoke (.request .recompute), .call 0 .advance, .call 0 .advance, .wait 1 2] ++
  Event.begin 1 ++ [.loop (.wake .request), .loop .advance, .call 0 .advance, .loop .advance] ++
  Event.evaluation

-- A buzz that is in the queue when the loop starts is not transparent to a request behind it.
theorem moves_buzzBeforeStart : ∃ inputs seen s seen' s',
    Driven (fun u e => e.Orderly .brokenBuzzer {} u) {} (.initial closed ⟨0, .ofSeconds 0⟩) inputs seen s ∧
    s.AtRest .brokenBuzzer ∧
    Driven (fun u e => e.Orderly .brokenBuzzer {} u) {} (.initial closed ⟨0, .ofSeconds 0⟩) inputs seen' s' ∧
    s'.AtRest .brokenBuzzer ∧ s'.moment = s.moment ∧ seen.buzzed = [0] ∧ seen'.buzzed = [] ∧
    seen'.moves ≠ seen.moves := by
  have h : ∃ x ∈ (State.initial closed ⟨0, .ofSeconds 0⟩).drive {}
        (fun u e => e.Orderly .brokenBuzzer {} u) buzzBeforeStart,
      ∃ y ∈ (State.initial closed ⟨0, .ofSeconds 0⟩).drive {}
        (fun u e => e.Orderly .brokenBuzzer {} u) onlyRecompute,
        sameInputs y.1 x.1 ∧ x.2.2.AtRest .brokenBuzzer ∧ y.2.2.AtRest .brokenBuzzer ∧
        y.2.2.moment = x.2.2.moment ∧ x.2.1.buzzed = [0] ∧ y.2.1.buzzed = [] ∧
        y.2.1.moves ≠ x.2.1.moves := by
    decide +kernel
  obtain ⟨x, hx, y, hy, hi, hr, hr', hn, hb, hb', hm⟩ := h
  exact ⟨x.1, x.2.1, x.2.2, y.2.1, y.2.2, .of_drive hx, hr, eq_of_sameInputs hi ▸ .of_drive hy, hr', hn,
    hb, hb', hm⟩

end EntryDoor.Scheduler
