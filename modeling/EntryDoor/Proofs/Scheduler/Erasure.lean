import EntryDoor.Proofs.Scheduler.Invariants

namespace EntryDoor.Scheduler

open State

-- The call of a request that was dropped at once.
def Call.forgotten : Call → Call
  | request r _ => request r .dropped
  | c => c

-- A state with the callers of `kept` alone, in which the loop stands elsewhere.
def State.keeping (kept : CallId → Bool) (registers : Registers) (phase : Phase) (s : State) :
    State := { s with
  registers
  phase
  calls := s.calls.mapIdx fun i c => if kept i then c else c.forgotten
  line := s.line.filter kept
  slot := s.slot.filter kept }

-- Only the requests of `kept` get anywhere, the others are at most dropped.
def Event.Keeps (kept : CallId → Bool) (s : State) : Event → Prop
  | .call i ce =>
    ∀ r stage, s.calls[i]? = some (.request r stage) → kept i = false → ce = .drop
  | _ => True

theorem forgotten_start {stage : StartStage} : (Call.start stage).forgotten = .start stage := rfl

theorem forgotten_stop {stage : StopStage} : (Call.stop stage).forgotten = .stop stage := rfl

variable {p : Policy} {s t u : State} {o : Outcome} {e : Event} {kept : CallId → Bool} {i : CallId}
  {registers : Registers} {phase : Phase} {r : Request} {stage : RequestStage} {ce : CallEvent}

namespace State

theorem callStep_request (hc : s.calls[i]? = some (.request r stage)) :
    s.callStep p i ce = s.requestStep p i r stage ce := by
  simp [callStep, hc]

theorem callStep_start {stage : StartStage} (hc : s.calls[i]? = some (.start stage)) :
    s.callStep p i .advance = s.startStep i stage := by
  simp [callStep, hc]

theorem callStep_stop {stage : StopStage} (hc : s.calls[i]? = some (.stop stage)) :
    s.callStep p i .advance = s.stopStep i stage := by
  simp [callStep, hc]

theorem callStep_dropStop {stage : StopStage} (hc : s.calls[i]? = some (.stop stage)) :
    s.callStep p i .drop = if stage = .finished ∨ stage = .dropped then none
      else some { s with calls := s.calls.set i (.stop .dropped) } := by
  simp [callStep, hc]

-- A state after a call was made.
def calling (s : State) (c : Call) : State :=
  { s with calls := s.calls ++ [c] }

theorem callStep_drop_calling (h : s.calls.length ∉ s.line) :
    (s.calling (.request r .created)).callStep p s.calls.length .drop =
      some (s.calling (.request r .dropped)) := by
  have hc : (s.calling (.request r .created)).calls[s.calls.length]? =
      some (.request r .created) := by
    simp [calling]
  rw [callStep_request hc]
  simp [requestStep, RequestStage.isOver, calling, setStage, List.erase_of_not_mem h]

theorem keeping_calls : (s.keeping kept registers phase).calls[i]? =
    (s.calls[i]?).map fun c => if kept i then c else c.forgotten := by
  simp [keeping]

theorem keeping_calls_of_kept (h : kept i) :
    (s.keeping kept registers phase).calls[i]? = s.calls[i]? := by
  simp [keeping_calls, h]

theorem keeping_setStage (h : kept i) : (s.setStage i r stage).keeping kept registers phase =
    (s.keeping kept registers phase).setStage i r stage := by
  simp [keeping, setStage, h]

end State

namespace State

-- What an absent caller does to its own request and in the line is not to be seen.
theorem keeping_of_absent {stage' : RequestStage} {line : List CallId} {slot : Option CallId}
    (hk : kept i = false) (hc : s.calls[i]? = some (.request r stage))
    (hl : line.filter kept = s.line.filter kept) (hs : slot.filter kept = s.slot.filter kept) :
    State.keeping kept registers phase { s.setStage i r stage' with line, slot } =
      s.keeping kept registers phase := by
  have hf : (Call.request r stage').forgotten = (Call.request r stage).forgotten := rfl
  have ⟨hi, hc⟩ := List.getElem?_eq_some_iff.mp hc
  simp only [keeping, setStage, List.mapIdx_set, hk, hf, hl, hs, Bool.false_eq_true, if_false]
  congr 1
  apply List.ext_getElem?
  intro j
  simp only [List.getElem?_set, List.getElem?_mapIdx, List.length_mapIdx]
  by_cases hij : i = j
  case pos => subst hij; simp [hi, hc, hk]
  case neg => simp [hij]

-- Whether a caller may give up depends on the loop only by whether it has ended.
theorem keeping_giveUpCause {deadline : Instant} (he : phase.hasEnded = s.phase.hasEnded) :
    (s.keeping kept registers phase).giveUpCause? deadline = s.giveUpCause? deadline := by
  unfold giveUpCause?
  rw [← he]
  rfl

-- The steps of a present caller are the same without the others. Of those in line before it there are
-- fewer, so it is the first there too once it is the first of all.
theorem keeping_requestStep (hk : kept i) (he : phase.hasEnded = s.phase.hasEnded)
    (h : s.requestStep p i r stage ce = some t) :
    (s.keeping kept registers phase).requestStep p i r stage ce =
      some (t.keeping kept registers phase) := by
  cases ce
  case drop =>
    simp only [requestStep] at h ⊢
    split at h <;> cases h
    simp [*, keeping, setStage, List.erase_filter]
  all_goals cases stage <;> simp only [requestStep, reduceCtorEq] at h ⊢
  case advance.created =>
    have hs : (s.keeping kept registers phase).stopping = s.stopping := rfl
    rw [hs]
    split at h <;> cases h <;> simp [*, keeping, setStage]
  case advance.sending =>
    split at h <;> cases h
    case isTrue hq =>
      obtain ⟨hq, hl, hp⟩ := hq
      obtain ⟨rest, hl⟩ := List.head?_eq_some_iff.mp hl
      simp [keeping, setStage, hq, hl, hk, he, hp, Option.filter]
  case advance.accepted =>
    cases r <;> cases h <;> rw [keeping_setStage hk]
  case advance.replied => cases h; rw [keeping_setStage hk]
  case giveUp.sending =>
    obtain ⟨cause, hc, rfl⟩ := Option.map_eq_some_iff.mp h
    rw [keeping_giveUpCause he, hc]
    simp [keeping, setStage, hk, List.erase_filter]
  case giveUp.queued =>
    obtain ⟨cause, hc, rfl⟩ := Option.map_eq_some_iff.mp h
    rw [keeping_giveUpCause he, hc, keeping_setStage hk]
    rfl

-- The steps of an absent caller are not to be seen at all.
theorem keeping_requestStep_of_absent (hk : kept i = false)
    (hc : s.calls[i]? = some (.request r stage)) (h : s.requestStep p i r stage ce = some t) :
    t.keeping kept registers phase = s.keeping kept registers phase := by
  -- The line without the others never had `i` in it.
  have he : (s.line.erase i).filter kept = s.line.filter kept := by
    rw [← List.erase_filter, List.erase_of_not_mem (by simp [hk])]
  cases ce
  case drop =>
    simp only [requestStep] at h
    split at h <;> cases h
    exact keeping_of_absent hk hc he rfl
  all_goals cases stage <;> simp only [requestStep, reduceCtorEq] at h ⊢
  case advance.created =>
    split at h <;> cases h
    case isTrue => exact keeping_of_absent hk hc rfl rfl
    case isFalse => exact keeping_of_absent hk hc (by simp [hk]) rfl
  case advance.sending =>
    split at h <;> cases h
    case isTrue hq =>
      obtain ⟨hq, hl, -⟩ := hq
      obtain ⟨rest, hl⟩ := List.head?_eq_some_iff.mp hl
      exact keeping_of_absent hk hc (by simp [hl, hk]) (by simp [hq, hk, Option.filter])
  case advance.accepted => cases r <;> cases h <;> exact keeping_of_absent hk hc rfl rfl
  case advance.replied => cases h; exact keeping_of_absent hk hc rfl rfl
  case giveUp.sending =>
    obtain ⟨_, -, rfl⟩ := Option.map_eq_some_iff.mp h
    exact keeping_of_absent hk hc he rfl
  case giveUp.queued =>
    obtain ⟨_, -, rfl⟩ := Option.map_eq_some_iff.mp h
    exact keeping_of_absent hk hc rfl rfl

-- Calls that are not for requests read nothing of requests, and of the loop only how far it is.
theorem keeping_startStep {stage : StartStage} (hs : stage ≠ .claimed)
    (h : s.startStep i stage = some t) :
    (s.keeping kept registers phase).startStep i stage =
      some (t.keeping kept registers phase) := by
  cases stage <;> simp only [startStep, reduceCtorEq] at h ⊢
  case claimed => exact absurd rfl hs
  case spawned =>
    cases h
    simp [keeping, forgotten_start]
  all_goals
    cases h
    simp [keeping, forgotten_start]
    rfl

theorem keeping_stopStep {stage : StopStage} (hd : phase.hasEnded = s.phase.hasEnded)
    (hx : phase.hasExited = s.phase.hasExited) (h : s.stopStep i stage = some t) :
    (s.keeping kept registers phase).stopStep i stage =
      some (t.keeping kept registers phase) := by
  cases stage <;> simp only [stopStep, reduceCtorEq, Option.ite_none_right_eq_some] at h ⊢
  case joining =>
    obtain ⟨he, h⟩ := h
    cases h
    simp [keeping, forgotten_stop, hd, he]
  case awaitingExit =>
    obtain ⟨he, h⟩ := h
    cases h
    simp [keeping, forgotten_stop, hx, he]
  case created =>
    cases h
    simp [keeping, forgotten_stop]
  all_goals
    cases h
    simp [keeping, forgotten_stop]
    rfl

end State

-- Every case of `LoopStep` is the outcome of an event.
theorem LoopStep.exists_event (h : LoopStep p s o) : ∃ e, s.loopStep p e = some o := by
  cases h
  case shutdown hp hs => exact ⟨.wake .shutdown, by simp [loopStep, wakeUp, hp, hs]⟩
  case abandon hp ha => exact ⟨.wake .abandoned, by simp [loopStep, wakeUp, hp, ha]⟩
  case timer hp hw => exact ⟨.wake .timer, by simp [loopStep, wakeUp, hp, hw]⟩
  case receive hp hi hc =>
    exact ⟨.wake .request, by simp [loopStep, wakeUp, State.receive, hp, hi, hc]⟩
  case answer result hp => exact ⟨.answer result, by simp [loopStep, hp]⟩
  case timeOut hp hd => exact ⟨.timeOut, by simp [loopStep, hp, hd]⟩
  case withdraw stage hp hc hn =>
    refine ⟨.advance, ?_⟩
    cases stage
    case queued d => exact absurd rfl (hn d)
    all_goals simp [loopStep, advance, complete, hp, hc]
  case accept hp hc => exact ⟨.advance, by simp [loopStep, advance, complete, hp, hc]⟩
  all_goals exact ⟨.advance, by simp [loopStep, advance, *]⟩

-- A state with the callers of `kept` alone.
def State.only (kept : CallId → Bool) (s : State) : State :=
  s.keeping kept s.registers s.phase

namespace State

theorem only_setStage (h : kept i) :
    (s.setStage i r stage).only kept = (s.only kept).setStage i r stage :=
  keeping_setStage h

theorem only_setStage_of_absent {stage' : RequestStage} (hk : kept i = false)
    (hc : s.calls[i]? = some (.request r stage)) :
    (s.setStage i r stage').only kept = s.only kept :=
  keeping_of_absent hk hc rfl rfl

-- A buzz is only replied to if its request was accepted, which that of an absent caller never is.
theorem only_reply {result : Except Failure Unit} :
    (s.reply i result).only kept = (s.only kept).reply i result := by
  have hf : ∀ c : Call, ∀ r, c.forgotten ≠ .request r .accepted := by rintro ⟨⟩ <;> nofun
  by_cases hk : kept i
  case pos =>
    have hc : (s.only kept).calls[i]? = s.calls[i]? := keeping_calls_of_kept hk
    simp only [reply, hc]
    split
    case h_1 => exact only_setStage hk
    case h_2 => rfl
  case neg =>
    have hk : kept i = false := by simpa using hk
    have hc : (s.only kept).calls[i]? = (s.calls[i]?).map Call.forgotten := by
      simp [only, keeping_calls, hk]
    have h : (s.only kept).reply i result = s.only kept := by
      unfold reply
      split
      case h_1 h =>
        rw [hc] at h
        obtain ⟨c, -, h⟩ := Option.map_eq_some_iff.mp h
        exact absurd h (hf c _)
      case h_2 => rfl
    rw [h]
    unfold reply
    split
    case h_1 hc => exact only_setStage_of_absent hk hc
    case h_2 => rfl

theorem only_afterCommand {result : Except Failure Unit} {purpose : Purpose} :
    (s.afterCommand p result purpose).only kept =
      (s.only kept).afterCommand p result purpose := by
  cases purpose
  case evaluation => rfl
  case buzz caller wake =>
    simp only [afterCommand, ← only_reply]
    rfl
  case reset rest wake => cases rest <;> rfl

theorem only_carryOut {caller : CallId} {wake : Instant} :
    (s.only kept).carryOut p caller wake r =
      ((s.carryOut p caller wake r).1.only kept, (s.carryOut p caller wake r).2) := by
  cases r <;> rfl

theorem only_evaluate : (s.only kept).evaluate p =
    ((s.evaluate p).1.only kept, (s.evaluate p).2) := by
  have hr : (s.only kept).registers = s.registers := rfl
  have hm : (s.only kept).moment = s.moment := rfl
  have hs : (s.only kept).status = s.status := rfl
  simp only [evaluate_eq, hr, hm, hs]
  split <;> rfl

theorem Abandoned.only (h : s.Abandoned) : (s.only kept).Abandoned := by
  refine ⟨h.1, fun c hc => ?_⟩
  obtain ⟨i, hi, rfl⟩ := List.mem_mapIdx.mp hc
  have := h.2 _ (List.getElem_mem hi)
  split
  case isTrue => exact this
  case isFalse =>
    revert this
    cases s.calls[i] <;> simp [Call.forgotten, Call.isOver, RequestStage.isOver]

end State

-- Without the others the loop does what it does with them.
theorem LoopStep.only (h : LoopStep p s o)
    (hs : ∀ i wake before, s.phase = .accepting i wake before → kept i)
    (ho : ∀ i wake before, o.1.phase = .accepting i wake before → kept i) :
    LoopStep p (s.only kept) (o.1.only kept, o.2) := by
  cases h
  case abandon h ha => exact .abandon h ha.only
  case receive h hi hc =>
    have hk := ho _ _ _ rfl
    exact .receive h (by simp [State.only, keeping, hi, hk]) ((keeping_calls_of_kept hk).trans hc)
  case accept h hc =>
    have hk := hs _ _ _ h
    have := LoopStep.accept (p := p) (s := s.only kept) h ((keeping_calls_of_kept hk).trans hc)
    rwa [← only_setStage hk, only_carryOut] at this
  case withdraw h hc hn =>
    have hk := hs _ _ _ h
    exact .withdraw h ((keeping_calls_of_kept hk).trans hc) hn
  case evaluate h =>
    rw [← only_evaluate]
    exact .evaluate h
  case answer result h =>
    simp only [State.answered, only_afterCommand]
    exact .answer result h
  case timeOut h hd =>
    simp only [State.answered, only_afterCommand]
    exact .timeOut h hd
  case begin h => exact .begin h
  case leave h hs => exact .leave h hs
  case wait h hs => exact .wait h hs
  case shutdown h hs => exact .shutdown h hs
  case timer h hw => exact .timer h hw
  case yield h hs => exact .yield h hs
  case goOn h hs => exact .goOn h hs
  case settle h hd => exact .settle h hd
  case plan h => exact .plan h
  case announce h => exact .announce h
  case finish h => exact .finish h

-- The loop comes to hold a request only by taking it up.
theorem LoopStep.receives {i : CallId} {wake : Instant} {before : Registers} (h : LoopStep p s o)
    (ho : o.1.phase = .accepting i wake before) : s.phase = .waiting wake ∧ s.slot = some i ∧
      before = s.registers ∧ ∃ r, o = ({ s with
        slot := none
        registers := s.registers.install r
        phase := .accepting i wake s.registers }, []) := by
  cases h
  case receive hp hi _ => cases ho; exact ⟨hp, hi, rfl, _, rfl⟩
  case accept r _ _ _ => cases r <;> simp [carryOut, command] at ho
  case evaluate => rcases s.evaluate_phase (p := p) with h | ⟨_, h⟩ <;> simp [h] at ho
  case answer | timeOut =>
    simp only [State.answered, afterCommand] at ho
    split at ho <;> simp at ho
  all_goals simp [command] at ho

-- Where the loop stands without the others, and with which registers. While it has the request of
-- one of them in hand, and until it has looked again whether to stop, it still waits.
inductive Elsewhere (kept : CallId → Bool) (s : State) : Registers → Phase → Prop
  | same (h : ∀ i wake before, s.phase = .accepting i wake before → kept i) :
      Elsewhere kept s s.registers s.phase
  | holding {i : CallId} {wake : Instant} {before : Registers}
      (hp : s.phase = .accepting i wake before) (hk : kept i = false) :
      Elsewhere kept s before (.waiting wake)
  | round {wake : Instant} (hp : s.phase = .polling wake) :
      Elsewhere kept s s.registers (.waiting wake)

-- What was seen from `s` to `t` is also seen without the others.
def Matched (p : Policy) (kept : CallId → Bool) (s : State) (registers : Registers)
    (phase : Phase) (now : List Occurrence) (t : State) : Prop :=
  ∃ registers' phase', Elsewhere kept t registers' phase' ∧
    RunWhere (Event.Keeps kept) p (s.keeping kept registers phase) (now.map (s.moment, ·))
      (t.keeping kept registers' phase')

namespace Elsewhere

variable {now : List Occurrence}

theorem congr (h : Elsewhere kept s registers phase) (hr : t.registers = s.registers)
    (hp : t.phase = s.phase) : Elsewhere kept t registers phase := by
  cases h
  case same h => rw [← hr, ← hp]; exact .same (hp ▸ h)
  case holding hk h => exact .holding (hp.trans h) hk
  case round h => rw [← hr]; exact .round (hp.trans h)

theorem hasEnded (h : Elsewhere kept s registers phase) :
    phase.hasEnded = s.phase.hasEnded := by
  cases h
  case same => rfl
  case holding h | round h => rw [h]; rfl

theorem hasExited (h : Elsewhere kept s registers phase) :
    phase.hasExited = s.phase.hasExited := by
  cases h
  case same => rfl
  case holding h | round h => rw [h]; rfl

-- A step that the others have no part in, and that leaves the loop alone.
theorem follow (hl : Elsewhere kept s registers phase) (hr : t.registers = s.registers)
    (hp : t.phase = s.phase) (he : e.Keeps kept (s.keeping kept registers phase))
    (h : (s.keeping kept registers phase).step p e = some (t.keeping kept registers phase, now)) :
    Matched p kept s registers phase now t :=
  ⟨registers, phase, hl.congr hr hp, .single he h⟩

-- A step that is not to be seen without the others.
theorem stay {registers' : Registers} {phase' : Phase} (hl : Elsewhere kept t registers' phase')
    (h : t.keeping kept registers' phase' = s.keeping kept registers phase) :
    Matched p kept s registers phase [] t :=
  ⟨registers', phase', hl, h ▸ .refl⟩

theorem loop (hs : Sound s) (hl : Elsewhere kept s registers phase) (h : LoopStep p s o)
    (hk : ∀ x ∈ o.2.filterMap (·.acceptance?), kept x.1) :
    Matched p kept s registers phase o.2 o.1 := by
  cases hl
  case same ha =>
    by_cases hx : ∃ i wake before, o.1.phase = .accepting i wake before ∧ kept i = false
    -- A request of one of the others is taken up. Without them the loop goes on waiting.
    case pos =>
      obtain ⟨i, wake, before, ho, hi'⟩ := hx
      obtain ⟨hp, hi, rfl, r, rfl⟩ := h.receives ho
      exact stay (.holding ho hi') (by simp [keeping, hp, hi, hi', Option.filter])
    -- Any other step is the same without the others.
    case neg =>
      have ho : ∀ i wake before, o.1.phase = .accepting i wake before → kept i := by simpa using hx
      obtain ⟨e, he⟩ := (h.only ha ho).exists_event
      exact ⟨_, _, .same ho, .single (e := .loop e) trivial he⟩
  case holding hx hp =>
    cases h
    -- It is not accepted, by what `kept` is,
    case accept h hc =>
      cases hp.symm.trans h
      simp [hk _ (List.mem_filterMap.mpr ⟨_, List.mem_cons_self, rfl⟩)] at hx
    -- and taking it back leads to what was there before.
    case withdraw h hc _ =>
      cases hp.symm.trans h
      have hw := hs.withdraw_eq hp hc
      refine stay (.round rfl) ?_
      simp only [hw]
      rfl
    all_goals simp_all
  case round wake hp =>
    cases h
    case wait h _ =>
      cases hp.symm.trans h
      exact stay (.same fun _ _ _ h => by cases h) rfl
    -- A waiting loop takes two steps to leave: it wakes up, then sees that it is to stop.
    case leave h hst =>
      have hw : (s.keeping kept s.registers (.waiting wake)).step p (.loop (.wake .shutdown)) =
          some (s.keeping kept s.registers (.polling wake), []) := by
        simp [State.step, loopStep, wakeUp, keeping, hst]
      have hl : (s.keeping kept s.registers (.polling wake)).step p (.loop .advance) =
          some (s.keeping kept s.registers .leaving, []) := by
        simp [State.step, loopStep, advance, keeping, hst]
      refine ⟨_, _, .same fun _ _ _ h => (by cases h), ?_⟩
      exact (RunWhere.refl.silent (by trivial) hw).silent (by trivial) hl
    all_goals simp_all

theorem keeps_call (h : ∀ r stage, s.calls[i]? = some (.request r stage) → kept i) :
    (Event.call i ce).Keeps kept (s.keeping kept registers phase) := by
  intro r stage hc hk
  rw [keeping_calls, Option.map_eq_some_iff] at hc
  have ⟨c, hc, hf⟩ := hc
  cases c
  case request => exact absurd (h _ _ hc) (by simp [hk])
  all_goals simp [hk, Call.forgotten] at hf

theorem step_invoke {what : Invocation} (hr : ¬s.released = true) :
    (s.keeping kept registers phase).step p (.invoke what) =
      some ((s.keeping kept registers phase).calling what.call, []) := by
  simp [State.step, keeping, hr, calling]

theorem invoke_present {what : Invocation} (hr : ¬s.released = true)
    (hk : kept s.calls.length ∨ what.call.forgotten = what.call) :
    RunWhere (Event.Keeps kept) p (s.keeping kept registers phase) []
      ((s.calling what.call).keeping kept registers phase) := by
  have h : (s.calling what.call).keeping kept registers phase =
      (s.keeping kept registers phase).calling what.call := by
    rcases hk with hk | hk <;> simp [calling, keeping, hk]
  exact h ▸ RunWhere.refl.silent (e := .invoke what) trivial (step_invoke hr)

-- The call of one of the others is made, and dropped at once.
theorem invoke_absent (hr : ¬s.released = true) (hk : kept s.calls.length = false) :
    RunWhere (Event.Keeps kept) p (s.keeping kept registers phase) []
      ((s.calling (.request r .created)).keeping kept registers phase) := by
  have h : (s.calling (.request r .created)).keeping kept registers phase =
      (s.keeping kept registers phase).calling (.request r .dropped) := by
    simp [calling, keeping, hk, Call.forgotten]
  have hl : (s.keeping kept registers phase).calls.length ∉
      (s.keeping kept registers phase).line := by
    simp [keeping, hk]
  have hd : ((s.keeping kept registers phase).calling (.request r .created)).step p
      (.call (s.keeping kept registers phase).calls.length .drop) =
      some ((s.keeping kept registers phase).calling (.request r .dropped), []) := by
    simp [State.step, callStep_drop_calling hl]
  rw [h]
  refine RunWhere.silent (e := .call _ .drop) ?_ (fun _ _ _ _ => rfl) hd
  exact RunWhere.refl.silent (e := .invoke (.request r)) trivial (step_invoke hr)

theorem invoke (hl : Elsewhere kept s registers phase) {what : Invocation}
    (h : s.step p (.invoke what) = some (t, now)) : Matched p kept s registers phase now t := by
  simp only [State.step] at h
  split at h <;> cases h
  case isFalse hr =>
    refine ⟨registers, phase, hl.congr rfl rfl, ?_⟩
    cases what with
    | request r =>
      by_cases hk : kept s.calls.length
      case pos => exact invoke_present hr (.inl hk)
      case neg => exact invoke_absent hr (by simpa using hk)
    | start => exact invoke_present hr (.inr rfl)
    | stop => exact invoke_present hr (.inr rfl)

theorem request (hl : Elsewhere kept s registers phase)
    (hc : s.calls[i]? = some (.request r stage)) (h : s.requestStep p i r stage ce = some t) :
    Matched p kept s registers phase [] t := by
  have hsp := sparesLoop_of_requestStep h
  by_cases hk : kept i
  case pos =>
    refine hl.follow (e := .call i ce) hsp.registers hsp.phase (keeps_call fun _ _ _ => hk) ?_
    have hc : (s.keeping kept registers phase).calls[i]? = some (.request r stage) :=
      (keeping_calls_of_kept hk).trans hc
    simp [State.step, callStep_request hc, keeping_requestStep hk hl.hasEnded h]
  case neg =>
    have hk : kept i = false := by simpa using hk
    exact stay (hl.congr hsp.registers hsp.phase) (keeping_requestStep_of_absent hk hc h)

theorem start {stage : StartStage} (hs : Sound s) (hl : Elsewhere kept s registers phase)
    (hc : s.calls[i]? = some (.start stage)) (h : s.startStep i stage = some t) :
    Matched p kept s registers phase [] t := by
  have hc' : (s.keeping kept registers phase).calls[i]? = some (.start stage) := by
    simp [keeping_calls, hc, forgotten_start]
  have he : (Event.call i .advance).Keeps kept (s.keeping kept registers phase) :=
    keeps_call fun _ _ hr => by rw [hc] at hr; cases hr
  by_cases hst : stage = .claimed
  -- The loop has not run yet when it is spawned, so it stands nowhere else.
  case pos =>
    subst hst
    have hp := hs.claimed i hc
    cases h
    cases hl
    case same =>
      refine ⟨_, _, .same fun _ _ _ h => (by cases h), RunWhere.refl.silent he ?_⟩
      simp only [State.step, callStep_start hc']
      simp [startStep, keeping, forgotten_start]
    case holding h => rw [hp] at h; cases h
    case round h => rw [hp] at h; cases h
  case neg =>
    have hsp : t.registers = s.registers ∧ t.phase = s.phase := by
      cases stage <;> cases h
      case claimed => exact absurd rfl hst
      all_goals exact ⟨rfl, rfl⟩
    refine hl.follow (e := .call i .advance) hsp.1 hsp.2 he ?_
    simp [State.step, callStep_start hc', keeping_startStep hst h]

theorem stop {stage : StopStage} (hl : Elsewhere kept s registers phase)
    (hc : s.calls[i]? = some (.stop stage))
    (h : s.callStep p i ce = some t) :
    Matched p kept s registers phase [] t := by
  have hc' : (s.keeping kept registers phase).calls[i]? = some (.stop stage) := by
    simp [keeping_calls, hc, forgotten_stop]
  have he : (Event.call i ce).Keeps kept (s.keeping kept registers phase) :=
    keeps_call fun _ _ hr => absurd (hc.symm.trans hr) nofun
  cases ce
  case giveUp => simp [callStep, hc] at h
  case advance =>
    rw [callStep_stop hc] at h
    have hsp := sparesLoop_of_stopStep h
    refine hl.follow (e := .call i .advance) hsp.registers hsp.phase he ?_
    simp [State.step, callStep_stop hc', keeping_stopStep hl.hasEnded hl.hasExited h]
  case drop =>
    rw [callStep_dropStop hc] at h
    split at h <;> cases h
    refine hl.follow (e := .call i .drop) rfl rfl he ?_
    simp only [State.step, callStep_dropStop hc', *]
    simp [keeping, forgotten_stop]

theorem step (hs : Sound s) (hl : Elsewhere kept s registers phase)
    (h : s.step p e = some (t, now)) (hk : ∀ x ∈ now.filterMap (·.acceptance?), kept x.1) :
    Matched p kept s registers phase now t := by
  cases e
  case pass elapsed clock => cases h; exact hl.follow (e := .pass elapsed clock) rfl rfl trivial rfl
  case release => cases h; exact hl.follow (e := .release) rfl rfl trivial rfl
  case invoke => exact hl.invoke h
  case loop => exact hl.loop hs (LoopStep.of_loopStep h) hk
  case call i ce =>
    have ⟨_, hu, h⟩ := Option.map_eq_some_iff.mp h
    cases h
    have ⟨c, hc, hm⟩ := Option.bind_eq_some_iff.mp hu
    split at hm
    case h_1 => exact hl.request hc hm
    case h_2 => exact hl.start hs hc hm
    case h_3 | h_4 => exact hl.stop hc hu
    case h_5 => cases hm

theorem settled (hl : Elsewhere kept s registers phase) :
    (s.keeping kept registers phase).settled = s.settled := by
  cases hl
  case same => rfl
  case holding _ hp => exact (settled_of_accepting hp).symm
  case round hp => simp [State.settled, keeping, hp]

end Elsewhere

-- By induction on the run, with `Elsewhere` as the invariant.
theorem Run.elsewhere {seen : History} {schedule : Schedule} {m : Moment}
    (run : Run p (.initial schedule m) seen s) (hk : ∀ x ∈ seen.accepted, kept x.1) :
    ∃ registers phase, Elsewhere kept s registers phase ∧
      RunWhere (Event.Keeps kept) p (.initial schedule m) seen
        (s.keeping kept registers phase) := by
  induction run
  case refl => exact ⟨_, _, .same nofun, .refl⟩
  case step run h ih =>
    simp only [History.accepted_append, History.accepted_map, List.mem_append] at hk
    have ⟨_, _, hl, hr⟩ := ih fun x hx => hk x (.inl hx)
    have ⟨_, _, hl', hr'⟩ := hl.step run.sound h fun x hx => hk x (.inr hx)
    exact ⟨_, _, hl', hr.trans hr'⟩

-- Whatever is shown in a run is also shown if these requests are dropped before they are sent.
theorem Run.without {seen : History} {schedule : Schedule} {m : Moment}
    (run : Run p (.initial schedule m) seen s) (hk : ∀ x ∈ seen.accepted, kept x.1) :
    ∃ t, RunWhere (Event.Keeps kept) p (.initial schedule m) seen t ∧ t.moment = s.moment ∧
      t.settled = s.settled := by
  have ⟨_, _, hl, hr⟩ := run.elsewhere hk
  exact ⟨_, hr, rfl, hl.settled⟩

end EntryDoor.Scheduler
