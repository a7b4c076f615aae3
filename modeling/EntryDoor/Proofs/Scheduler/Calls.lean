import EntryDoor.Proofs.Scheduler.History
import EntryDoor.Proofs.Scheduler.Steps

namespace EntryDoor.Scheduler

open State

variable {p : Policy} {s t : State} {o : Outcome} {e : Event}

namespace State

variable {purpose : Purpose} {c : Command} {limit : Duration} {i : CallId} {wake : Instant}
  {r : Request} {result : Except Failure Unit}

@[simp] theorem carryOut_calls : (s.carryOut p i wake r).1.calls = s.calls := by
  cases r <;> rfl

@[simp] theorem carryOut_unclaimed : (s.carryOut p i wake r).1.unclaimed = s.unclaimed := by
  cases r <;> rfl

@[simp] theorem carryOut_acceptance :
    (s.carryOut p i wake r).2.filterMap (·.acceptance?) = [] := by
  cases r <;> rfl

-- An evaluation finds what the registers ask for, whether or not they hold an expired overwrite.
theorem evaluate_eq : s.evaluate p =
    match ((s.registers.clearExpired s.moment.clock).aim p s.status.state).spend? with
    | some spent =>
      ({ s with
        registers := spent
        phase := .commanding (.evaluation s.status.validUntil) s.status.state.command
          (s.moment.instant.after p.commandTimeout) },
        [.evaluated s.status, .called (.evaluation s.status.validUntil) s.status.state.command])
    | none =>
      ({ s with
        registers := (s.registers.clearExpired s.moment.clock).aim p s.status.state
        phase := .planning s.status.validUntil }, [.evaluated s.status]) := by
  have h : (s.registers.clearExpired s.moment.clock).statusAt s.moment.clock = s.status :=
    s.registers.statusAt_clearExpired (Int.le_refl _)
  simp only [evaluate, h]
  rfl

@[simp] theorem evaluate_calls : (s.evaluate p).1.calls = s.calls := by
  rw [evaluate_eq]
  split <;> rfl

@[simp] theorem evaluate_unclaimed : (s.evaluate p).1.unclaimed = s.unclaimed := by
  rw [evaluate_eq]
  split <;> rfl

@[simp] theorem evaluate_acceptance : (s.evaluate p).2.filterMap (·.acceptance?) = [] := by
  rw [evaluate_eq]
  split <;> rfl

@[simp] theorem afterCommand_unclaimed :
    (s.afterCommand p result purpose).unclaimed = s.unclaimed := by
  unfold afterCommand
  split <;> try rfl
  simp only [reply]
  split <;> rfl

theorem reply_registers {i : CallId} : (s.reply i result).registers = s.registers := by
  unfold reply
  split <;> rfl

theorem reply_calls (s : State) (i : CallId) (result : Except Failure Unit) :
    (s.reply i result).calls = s.calls ∨ ∃ r, s.calls[i]? = some (.request r .accepted) ∧
      (s.reply i result).calls = s.calls.set i (.request r (.replied result)) := by
  unfold reply
  split
  case h_1 hc => exact .inr ⟨_, hc, rfl⟩
  case h_2 => exact .inl rfl

theorem afterCommand_calls : (s.afterCommand p result purpose).calls = s.calls ∨
    ∃ i r, s.calls[i]? = some (.request r .accepted) ∧
      (s.afterCommand p result purpose).calls = s.calls.set i (.request r (.replied result)) := by
  unfold afterCommand
  split
  case h_2 =>
    cases s.reply_calls _ result
    case inl h => exact .inl h
    case inr h => exact .inr ⟨_, h⟩
  all_goals exact .inl rfl

end State

-- A step of a caller takes its call further, the acceptance of its request apart.
inductive Call.Moves : Call → Call → Prop
  | request {r stage stage'} (h : stage.Follows r stage') :
      Moves (.request r stage) (.request r stage')
  | start (stage) {stage'} (h : stage' ≠ .claimed) : Moves (.start stage) (.start stage')
  | stop (stage stage') : Moves (.stop stage) (.stop stage')

-- What a call to the door can come to: the door answers, or it does not in time.
def DoorResult (result : Except Failure Unit) : Prop :=
  ∀ cause, result = .error (.scheduler cause) → ∃ c, cause = .commandTimedOut c

-- What the loop does to the calls, and the request that it accepts if it accepts one.
inductive LoopCalls (s t : State) : List (CallId × Request) → Prop
  | same (h : t.calls = s.calls) : LoopCalls s t []
  | reply {i r result} (hr : DoorResult result) (hc : s.calls[i]? = some (.request r .accepted))
      (h : t.calls = s.calls.set i (.request r (.replied result))) : LoopCalls s t []
  | accept {i r d} (hc : s.calls[i]? = some (.request r (.queued d)))
      (h : t.calls = s.calls.set i (.request r .accepted)) : LoopCalls s t [(i, r)]

-- What any step does to the calls.
inductive CallsStep (s t : State) : List (CallId × Request) → Prop
  | same (h : t.calls = s.calls) : CallsStep s t []
  | invoke (what : Invocation) (h : t.calls = s.calls ++ [what.call]) : CallsStep s t []
  | move {i c c'} (hc : s.calls[i]? = some c) (h : t.calls = s.calls.set i c')
      (hm : c.Moves c') : CallsStep s t []
  | claim {i} (hc : s.calls[i]? = some (.start .checked))
      (h : t.calls = s.calls.set i (.start .claimed)) : CallsStep s t []
  | loop {accepted} (h : LoopCalls s t accepted) : CallsStep s t accepted

-- Replies are given at the end of a call to the door, whatever it came to.
theorem LoopStep.calls (h : LoopStep p s o) :
    LoopCalls s o.1 (o.2.filterMap (·.acceptance?)) := by
  cases h
  case accept hp hc =>
    simp only [List.filterMap_cons, Occurrence.acceptance?_accepted, carryOut_acceptance]
    exact .accept hc (carryOut_calls.trans rfl)
  case evaluate =>
    rw [evaluate_acceptance]
    exact .same evaluate_calls
  case answer result _ =>
    cases s.afterCommand_calls (p := p)
    case inl h => exact .same h
    case inr h =>
      have ⟨_, _, hc, h⟩ := h
      exact .reply (by cases result <;> nofun) hc h
  case timeOut =>
    cases s.afterCommand_calls (p := p)
    case inl h => exact .same h
    case inr h =>
      have ⟨_, _, hc, h⟩ := h
      exact .reply (by rintro _ ⟨⟩; exact ⟨_, rfl⟩) hc h
  all_goals exact .same rfl

theorem LoopStep.unclaimed (h : LoopStep p s o) : o.1.unclaimed = s.unclaimed := by
  cases h
  case accept => exact carryOut_unclaimed
  case evaluate => exact evaluate_unclaimed
  case answer | timeOut => exact afterCommand_unclaimed
  all_goals rfl

theorem Step.calls (h : Step p s o) : CallsStep s o.1 (o.2.filterMap (·.acceptance?)) := by
  cases h
  case pass | release => exact .same rfl
  case invoke what => exact .invoke what rfl
  case request hc h =>
    have ⟨_, hf, h⟩ := calls_of_requestStep h
    exact .move hc h (.request hf)
  case stop hc h =>
    have ⟨_, h⟩ := calls_of_stopStep h
    exact .move hc h (.stop _ _)
  case dropStop hc => exact .move hc rfl (.stop _ _)
  case loop h => exact .loop h.calls
  case claim hc _ => exact .claim hc rfl
  all_goals exact .move ‹_› rfl (.start _ nofun)

section

variable {accepted : List (CallId × Request)} {i j : CallId} {r : Request} {stage : RequestStage}
  {calls : List Call} {c c' : Call}

-- A call is what it was set to, or was there before.
theorem eq_or_calls_of_set {d : Call} (ht : t.calls = s.calls.set j d)
    (h : t.calls[i]? = some c) : j = i ∧ c = d ∨ s.calls[i]? = some c := by
  rw [ht, List.getElem?_set] at h
  split at h
  case isTrue hij => split at h <;> simp_all
  case isFalse => exact .inr h

theorem calls_of_set {d : Call} (ht : t.calls = s.calls.set j d) (hc : d ≠ c)
    (h : t.calls[i]? = some c) : s.calls[i]? = some c :=
  (eq_or_calls_of_set ht h).resolve_left fun h => hc h.2.symm

theorem request_persists_set (hj : calls[j]? = some c) (hc : calls[i]? = some (.request r stage))
    (h : ∀ stage, c = .request r stage → ∃ stage', c' = .request r stage') :
    ∃ stage', (calls.set j c')[i]? = some (.request r stage') := by
  by_cases hij : j = i
  case pos =>
    subst hij
    have ⟨stage', h⟩ := h stage (Option.some.inj (hj.symm.trans hc))
    have hi := (List.getElem?_eq_some_iff.mp hc).1
    exact ⟨stage', by rw [List.getElem?_set_self hi, h]⟩
  case neg => exact ⟨stage, by rw [List.getElem?_set_ne hij, hc]⟩

theorem LoopCalls.request_persists (h : LoopCalls s t accepted)
    (hc : s.calls[i]? = some (.request r stage)) :
    ∃ stage', t.calls[i]? = some (.request r stage') := by
  cases h
  case same h => exact ⟨stage, h ▸ hc⟩
  case reply hj h =>
    refine h ▸ request_persists_set hj hc fun _ hr => ?_
    cases hr
    exact ⟨_, rfl⟩
  case accept hj h =>
    refine h ▸ request_persists_set hj hc fun _ hr => ?_
    cases hr
    exact ⟨_, rfl⟩

-- A call for a request stays one for that request.
theorem CallsStep.request_persists (h : CallsStep s t accepted)
    (hc : s.calls[i]? = some (.request r stage)) :
    ∃ stage', t.calls[i]? = some (.request r stage') := by
  cases h
  case same h => exact ⟨stage, h ▸ hc⟩
  case invoke what h =>
    have hi := (List.getElem?_eq_some_iff.mp hc).1
    exact ⟨stage, by rw [h, List.getElem?_append_left hi, hc]⟩
  case move hj h hm =>
    refine h ▸ request_persists_set hj hc fun _ hr => ?_
    subst hr
    cases hm
    exact ⟨_, rfl⟩
  case claim hj h => exact h ▸ request_persists_set hj hc nofun
  case loop h => exact h.request_persists hc

-- How a call has come to be `c` in a step to `t` by which the requests `accepted` were accepted.
inductive CallBy (p : Policy) (s t : State) (i : CallId) (accepted : List (CallId × Request)) :
    Call → Prop
  | kept {c : Call} (h : s.calls[i]? = some c) : CallBy p s t i accepted c
  | invoke (r : Request) : CallBy p s t i accepted (.request r .created)
  | invokeStop : CallBy p s t i accepted (.stop .created)
  | request {r : Request} {before stage : RequestStage} {ce : CallEvent}
      (hc : s.calls[i]? = some (.request r before))
      (h : s.requestStep p i r before ce = some t) : CallBy p s t i accepted (.request r stage)
  | start (stage : StartStage) : CallBy p s t i accepted (.start stage)
  | stop {before stage : StopStage} (hc : s.calls[i]? = some (.stop before))
      (h : s.stopStep i before = some t) : CallBy p s t i accepted (.stop stage)
  | dropStop : CallBy p s t i accepted (.stop .dropped)
  | reply {r : Request} {result : Except Failure Unit}
      (hc : s.calls[i]? = some (.request r .accepted)) :
      CallBy p s t i accepted (.request r (.replied result))
  | accept {r : Request} (ha : (i, r) ∈ accepted) : CallBy p s t i accepted (.request r .accepted)

theorem LoopCalls.call (h : LoopCalls s t accepted) (hi : t.calls[i]? = some c) :
    CallBy p s t i accepted c := by
  cases h
  case same ht => exact .kept (ht ▸ hi)
  case reply hc ht =>
    rcases eq_or_calls_of_set ht hi with ⟨rfl, rfl⟩ | hi
    case inl => exact .reply hc
    case inr => exact .kept hi
  case accept hc ht =>
    rcases eq_or_calls_of_set ht hi with ⟨rfl, rfl⟩ | hi
    case inl => exact .accept List.mem_cons_self
    case inr => exact .kept hi

-- Each call goes on by itself, but for what the loop does to requests.
theorem Step.call (h : Step p s o) (hi : o.1.calls[i]? = some c) :
    CallBy p s o.1 i (o.2.filterMap (·.acceptance?)) c := by
  cases h
  case pass | release => exact .kept hi
  case invoke what =>
    rw [List.getElem?_append] at hi
    split at hi
    case isTrue => exact .kept hi
    case isFalse =>
      cases List.mem_singleton.mp (List.mem_of_getElem? hi)
      cases what
      case request r => exact .invoke r
      case start => exact .start _
      case stop => exact .invokeStop
  case request hc h =>
    have ⟨_, _, ht⟩ := calls_of_requestStep h
    rcases eq_or_calls_of_set ht hi with ⟨rfl, rfl⟩ | hi
    case inl => exact .request hc h
    case inr => exact .kept hi
  case stop hc h =>
    have ⟨_, ht⟩ := calls_of_stopStep h
    rcases eq_or_calls_of_set ht hi with ⟨rfl, rfl⟩ | hi
    case inl => exact .stop hc h
    case inr => exact .kept hi
  case dropStop =>
    rcases eq_or_calls_of_set (d := .stop .dropped) rfl hi with ⟨rfl, rfl⟩ | hi
    case inl => exact .dropStop
    case inr => exact .kept hi
  case loop h => exact h.calls.call hi
  all_goals
    rcases eq_or_calls_of_set (d := .start _) rfl hi with ⟨rfl, rfl⟩ | hi
    case inl => exact .start _
    case inr => exact .kept hi

end

end EntryDoor.Scheduler
