import EntryDoor.Proofs.Scheduler.Calls

namespace EntryDoor.Scheduler

open State

variable {p : Policy} {s t : State} {o : Outcome} {e : Event}

-- Call `i` is the one that starts the loop, and has not done so yet.
def State.Claims (s : State) (i : CallId) : Prop :=
  s.calls[i]? = some (.start .claimed)

section

variable {i j : CallId} {c' : Call} {accepted : List (CallId × Request)}

theorem claims_of_set (ht : t.calls = s.calls.set j c') (hc : c' ≠ .start .claimed)
    (h : t.Claims i) : s.Claims i :=
  calls_of_set ht hc h

theorem LoopCalls.claims (h : LoopCalls s t accepted) (hi : t.Claims i) : s.Claims i := by
  cases h
  case same h => unfold Claims at *; rwa [h] at hi
  case reply h => exact claims_of_set h nofun hi
  case accept h => exact claims_of_set h nofun hi

end

-- Only one kind of step makes a call the one that starts the loop.
theorem Step.claims (h : Step p s o) :
    (∀ i, o.1.Claims i → s.Claims i) ∧ (o.1.unclaimed = true → s.unclaimed = true) ∨
    ∃ i, s.unclaimed = true ∧ o.1 =
      { s with calls := s.calls.set i (.start .claimed), unclaimed := false } := by
  cases h
  case pass | release => exact .inl ⟨fun _ h => h, id⟩
  case invoke what =>
    refine .inl ⟨fun i hi => ?_, id⟩
    unfold Claims at *
    rw [List.getElem?_append] at hi
    split at hi
    case isTrue => exact hi
    case isFalse =>
      have := List.mem_of_getElem? hi
      cases what <;> simp [Invocation.call] at this
  case request h =>
    have ⟨_, _, hc⟩ := calls_of_requestStep h
    have hu := (sparesLoop_of_requestStep h).unclaimed
    exact .inl ⟨fun _ => claims_of_set hc nofun, fun h => hu ▸ h⟩
  case stop h =>
    have ⟨_, hc⟩ := calls_of_stopStep h
    have hu := (sparesLoop_of_stopStep h).unclaimed
    exact .inl ⟨fun _ => claims_of_set hc nofun, fun h => hu ▸ h⟩
  case claim hc hu => exact .inr ⟨_, hu, rfl⟩
  case loop h => exact .inl ⟨fun _ => h.calls.claims, fun hu => h.unclaimed ▸ hu⟩
  case claimLate => exact .inl ⟨fun _ => claims_of_set rfl nofun, nofun⟩
  all_goals exact .inl ⟨fun _ => claims_of_set rfl nofun, id⟩

namespace Phase

-- The effect of a request is in place and its caller has not been told.
@[simp] def IsAccepting : Phase → Prop
  | accepting .. => True
  | _ => False

@[simp] def IsResetting : Phase → Prop
  | commanding (.reset ..) .. => True
  | settling .. => True
  | _ => False

end Phase

namespace State

-- The registers without the effect of a request that is just being accepted.
def settled (s : State) : Registers :=
  match s.phase with
  | .accepting _ _ before => before
  | _ => s.registers

theorem settled_of_not_accepting (h : ¬s.phase.IsAccepting) : s.settled = s.registers := by
  unfold settled
  split
  case h_1 hp => simp [hp, Phase.IsAccepting] at h
  case h_2 => rfl

theorem settled_of_accepting {i : CallId} {wake : Instant} {before : Registers}
    (h : s.phase = .accepting i wake before) : s.settled = before := by
  simp [settled, h]

theorem settled_congr (h : SameLoop s t) : t.settled = s.settled := by
  simp [settled, h.registers, h.phase]

end State

theorem LoopStep.awake (h : LoopStep p s o) : s.phase ≠ .dormant := by
  cases h <;> simp_all

namespace Registers

variable {r r' : Registers} {q : Request} {clock : Timestamp} {state : DoorState}

theorem aim_target : (r.aim p state).target = some state := by
  unfold aim
  split
  case isTrue h => exact h
  case isFalse => rfl

theorem aim_resetting : (r.aim p state).resetting = r.resetting := by
  unfold aim
  split <;> rfl

theorem spend?_eq (h : r.spend? = some r') : r' = { r with retries := r.retries + 1 } := by
  unfold spend? at h
  split at h <;> cases h
  rfl

theorem install_resetting (h : q ≠ .reset) : (r.install q).resetting = r.resetting := by
  cases q
  case reset => exact absurd rfl h
  all_goals rfl

end Registers

namespace State

-- What an evaluation leaves in the registers.
def driven (p : Policy) (s : State) : Registers :=
  let aimed := (s.registers.clearExpired s.moment.clock).aim p s.status.state
  aimed.spend?.getD aimed

theorem driven_resetting : (s.driven p).resetting = s.registers.resetting := by
  unfold driven
  dsimp only
  generalize h : Registers.aim _ p _ = aimed
  have ha : aimed.resetting = s.registers.resetting := h ▸ Registers.aim_resetting
  cases hs : aimed.spend?
  case none => exact ha
  case some => rw [Option.getD_some, Registers.spend?_eq hs, ha]

theorem evaluate_registers : (s.evaluate p).1.registers = s.driven p := by
  rw [evaluate_eq, driven]
  split <;> simp [*]

theorem evaluate_phase : (s.evaluate p).1.phase = .planning s.status.validUntil ∨
    ∃ deadline, (s.evaluate p).1.phase =
      .commanding (.evaluation s.status.validUntil) s.status.state.command deadline := by
  rw [evaluate_eq]
  split
  case h_1 => exact .inr ⟨_, rfl⟩
  case h_2 => exact .inl rfl

theorem evaluate_settled : (s.evaluate p).1.settled = s.driven p := by
  rw [← evaluate_registers]
  apply settled_of_not_accepting
  rcases s.evaluate_phase (p := p) with h | ⟨_, h⟩ <;> simp [h, Phase.IsAccepting]

end State

-- What holds in every reachable state: the loop is started once, it holds a request only with the
-- effect of that request in place, and a hard reset shows in the registers as long as it goes on.
structure Sound (s : State) : Prop where
  unclaimed : s.unclaimed = true → s.phase = .dormant
  unheld : s.unclaimed = true → ∀ i, ¬s.Claims i
  claimed : ∀ i, s.Claims i → s.phase = .dormant
  sole : ∀ i j, s.Claims i → s.Claims j → i = j
  accepting : ∀ i wake before, s.phase = .accepting i wake before →
    ∃ r stage, s.calls[i]? = some (.request r stage) ∧ s.registers = before.install r
  calm : ¬s.phase.IsResetting → s.settled.resetting = false

namespace Sound

theorem initial {schedule : Schedule} {m : Moment} : Sound (.initial schedule m) where
  unclaimed _ := rfl
  unheld _ := nofun
  claimed := nofun
  sole := nofun
  accepting := nofun
  calm _ := rfl

variable (hs : Sound s)

include hs

section

variable {i : CallId} {wake : Instant} {before : Registers} (hp : s.phase = .accepting i wake before)

include hp

theorem before_calm : before.resetting = false := by
  rw [← settled_of_accepting hp]
  exact hs.calm (by simp [hp])

variable {r : Request} {stage : RequestStage} (hc : s.calls[i]? = some (.request r stage))

include hc

theorem eq_install : s.registers = before.install r := by
  have ⟨_, _, hc', h⟩ := hs.accepting _ _ _ hp
  cases Option.some.inj (hc.symm.trans hc')
  exact h

theorem withdraw_eq : s.registers.withdraw before r = before := by
  rw [hs.eq_install hp hc, Registers.withdraw_install (hs.before_calm hp)]

end

-- A step that leaves the loop alone and makes no call the one that starts it.
theorem spares {accepted : List (CallId × Request)} (h : SameLoop s t)
    (hc : CallsStep s t accepted) (hi : ∀ i, t.Claims i → s.Claims i) : Sound t where
  unclaimed hu := h.phase ▸ hs.unclaimed (h.unclaimed ▸ hu)
  unheld hu i ht := hs.unheld (h.unclaimed ▸ hu) i (hi i ht)
  claimed i ht := h.phase ▸ hs.claimed i (hi i ht)
  sole i j ht ht' := hs.sole i j (hi i ht) (hi j ht')
  accepting i wake before hp := by
    have ⟨r, stage, hr, ha⟩ := hs.accepting i wake before (h.phase ▸ hp)
    have ⟨stage', hr⟩ := hc.request_persists hr
    exact ⟨r, stage', hr, h.registers ▸ ha⟩
  calm hp := settled_congr h ▸ hs.calm (h.phase ▸ hp)

-- The call that starts the loop is there once, and only before the loop runs.
theorem claim {i : CallId} (hu : s.unclaimed = true) :
    Sound { s with calls := s.calls.set i (.start .claimed), unclaimed := false } := by
  have hi : ∀ j, ({ s with calls := s.calls.set i (.start .claimed), unclaimed := false } :
      State).Claims j → j = i := by
    intro j hj
    have hj : (s.calls.set i (.start .claimed))[j]? = some (.start .claimed) := hj
    by_cases h : i = j
    case pos => exact h.symm
    case neg =>
      rw [List.getElem?_set_ne h] at hj
      exact absurd hj (hs.unheld hu j)
  have hp := hs.unclaimed hu
  exact {
    unclaimed := nofun
    unheld := nofun
    claimed := fun _ _ => hp
    sole := fun _ _ h h' => (hi _ h).trans (hi _ h').symm
    accepting := fun _ _ _ h => by simp [hp] at h
    calm := hs.calm }

theorem spawn {i : CallId} (hi : s.Claims i) :
    Sound { s with calls := s.calls.set i (.start .spawned), phase := .spawned } := by
  have hp := hs.claimed i hi
  have hu : s.unclaimed ≠ true := fun h => hs.unheld h i hi
  have hn : ∀ j, ¬({ s with calls := s.calls.set i (.start .spawned), phase := .spawned } :
      State).Claims j := by
    intro j hj
    have hj : (s.calls.set i (.start .spawned))[j]? = some (.start .claimed) := hj
    by_cases h : i = j
    case pos => simp [h, List.getElem?_set] at hj
    case neg =>
      rw [List.getElem?_set_ne h] at hj
      exact h (hs.sole i j hi hj)
  have hc : s.registers.resetting = false := by
    rw [← settled_of_not_accepting (by simp [hp, Phase.IsAccepting])]
    exact hs.calm (by simp [hp, Phase.IsResetting])
  exact {
    unclaimed := fun h => absurd h hu
    unheld := fun h => absurd h hu
    claimed := fun j h => absurd h (hn j)
    sole := fun j _ h => absurd h (hn j)
    accepting := nofun
    calm := fun _ => hc }

theorem registers_calm (ha : ¬s.phase.IsAccepting) (hr : ¬s.phase.IsResetting) :
    s.registers.resetting = false := by
  rw [← settled_of_not_accepting ha]
  exact hs.calm hr

-- A step of the loop keeps what is said about the start, for then there is none to come.
theorem of_loop (hl : LoopStep p s o)
    (accepting : ∀ i wake before, o.1.phase = .accepting i wake before →
      ∃ r stage, o.1.calls[i]? = some (.request r stage) ∧ o.1.registers = before.install r)
    (calm : ¬o.1.phase.IsResetting → o.1.settled.resetting = false) : Sound o.1 where
  unclaimed hu := absurd (hs.unclaimed (hl.unclaimed ▸ hu)) hl.awake
  unheld hu := absurd (hs.unclaimed (hl.unclaimed ▸ hu)) hl.awake
  claimed i ht := absurd (hs.claimed i (hl.calls.claims ht)) hl.awake
  sole i j ht ht' := hs.sole i j (hl.calls.claims ht) (hl.calls.claims ht')
  accepting := accepting
  calm := calm

theorem of_quiet (hl : LoopStep p s o) (ha : ¬o.1.phase.IsAccepting)
    (calm : ¬o.1.phase.IsResetting → o.1.registers.resetting = false) : Sound o.1 := by
  refine hs.of_loop hl (fun i wake before hp => ?_) (fun hr => ?_)
  case refine_1 => simp [hp] at ha
  case refine_2 => rw [settled_of_not_accepting ha]; exact calm hr

theorem receive {i : CallId} {wake : Instant} {r : Request} {stage : RequestStage}
    (hl : LoopStep p s ({ s with
      slot := none
      registers := s.registers.install r
      phase := .accepting i wake s.registers }, []))
    (hp : s.phase = .waiting wake) (hc : s.calls[i]? = some (.request r stage)) :
    Sound { s with
      slot := none
      registers := s.registers.install r
      phase := .accepting i wake s.registers } := by
  refine hs.of_loop hl (fun _ _ _ h => ?_) (fun _ => ?_)
  case refine_1 => cases h; exact ⟨r, stage, hc, rfl⟩
  case refine_2 => exact hs.registers_calm (by simp [hp]) (by simp [hp])

-- An accepted request begins a hard reset or leaves the flag as it was before, that is, not set.
theorem accept_calm {i : CallId} {wake : Instant} {before : Registers} {r : Request}
    {stage : RequestStage} (hp : s.phase = .accepting i wake before)
    (hc : s.calls[i]? = some (.request r stage))
    (hn : ¬((s.setStage i r .accepted).carryOut p i wake r).1.phase.IsResetting) :
    ((s.setStage i r .accepted).carryOut p i wake r).1.registers.resetting = false := by
  have h := hs.eq_install hp hc
  have hb := hs.before_calm hp
  have hr : r ≠ .reset := by rintro rfl; simp [carryOut, command] at hn
  have := h ▸ Registers.install_resetting hr
  cases r <;> simp_all [carryOut, command, Registers.restart, setStage]

theorem answered {purpose : Purpose} {c : Command} {deadline : Instant}
    {result : Except Failure Unit} (hl : LoopStep p s (s.answered p result purpose c))
    (hp : s.phase = .commanding purpose c deadline) : Sound (s.afterCommand p result purpose) := by
  -- Only the end of a hard reset takes the flag back, and then there was one.
  have hr : s.phase.IsResetting ∨ s.registers.resetting = false := by
    by_cases hr : s.phase.IsResetting
    case pos => exact .inl hr
    case neg => exact .inr (hs.registers_calm (by simp [hp]) hr)
  refine hs.of_quiet hl ?_ fun hn => ?_
  case refine_1 =>
    simp only [State.answered, afterCommand]
    split <;> simp
  case refine_2 =>
    simp only [State.answered, afterCommand] at hn ⊢
    split <;> simp_all
    simp only [reply]
    split <;> simp_all [setStage]

theorem loop (h : LoopStep p s o) : Sound o.1 := by
  have hl := h
  cases h
  case receive hp _ hc => exact hs.receive hl hp hc
  case accept r _ hp hc =>
    refine hs.of_quiet hl ?_ (hs.accept_calm hp hc)
    cases r <;> simp [carryOut, command]
  case withdraw hp hc _ =>
    have hw := hs.withdraw_eq hp hc
    refine hs.of_quiet hl (by simp) fun _ => ?_
    simp only [hw]
    exact hs.before_calm hp
  case evaluate hp =>
    have hc := hs.registers_calm (by simp [hp]) (by simp [hp])
    refine hs.of_quiet hl ?_ fun _ => ?_
    case refine_1 => rcases s.evaluate_phase (p := p) with h | ⟨_, h⟩ <;> simp [h]
    case refine_2 => rw [evaluate_registers, driven_resetting, hc]
  case settle => exact hs.of_quiet hl (by simp [command]) fun h => by simp [command] at h
  case answer hp => exact hs.answered hl hp
  case timeOut hp _ => exact hs.answered hl hp
  all_goals
    rename_i hp
    first
    | exact hs.of_quiet hl (by simp) fun _ => hs.registers_calm (by simp [*]) (by simp [*])

end Sound

namespace State

theorem carryOut_replay {i : CallId} {wake : Instant} {before : Registers} {r : Request}
    (h : s.registers = before.install r) : (s.carryOut p i wake r).1.settled = History.replay p
      before ((.accepted i r :: (s.carryOut p i wake r).2).map (s.moment, ·)) := by
  cases r <;>
    simp [carryOut, command, settled, History.replay, Registers.after, Registers.install, Registers.restart, h]

theorem evaluate_replay (h : s.phase = .evaluating) : (s.evaluate p).1.settled =
    History.replay p s.settled ((s.evaluate p).2.map (s.moment, ·)) := by
  have hr : s.settled = s.registers := settled_of_not_accepting (by simp [h])
  rw [evaluate_settled, hr, evaluate_eq, driven]
  split <;> simp [History.replay, Registers.after, status, *]

theorem answered_replay {purpose : Purpose} {c : Command} {deadline : Instant}
    {result : Except Failure Unit} (h : s.phase = .commanding purpose c deadline) :
    (s.answered p result purpose c).1.settled =
      History.replay p s.settled ((s.answered p result purpose c).2.map (s.moment, ·)) := by
  have hr : s.settled = s.registers := settled_of_not_accepting (by simp [h])
  simp only [State.answered, hr, History.replay, List.map_cons, List.map_nil, List.foldl_cons,
    List.foldl_nil]
  unfold afterCommand
  split
  case h_2 =>
    simp only [settled, reply]
    split <;> rfl
  case h_4 rest _ hn =>
    cases rest
    case nil => exact absurd rfl hn
    case cons => rfl
  all_goals rfl

end State

-- Taking up a request changes no settled register, and neither does taking it back.
theorem Sound.settled_loop (hs : Sound s) (h : LoopStep p s o) :
    o.1.settled = History.replay p s.settled (o.2.map (s.moment, ·)) := by
  cases h
  case receive hp _ _ => simp [settled, History.replay, hp]
  case accept hp hc =>
    rw [settled_of_accepting hp]
    exact carryOut_replay (s := s.setStage _ _ _) (hs.eq_install hp hc)
  case withdraw hp hc _ =>
    rw [settled_of_accepting hp]
    exact hs.withdraw_eq hp hc
  case evaluate hp => exact evaluate_replay hp
  case answer hp => exact answered_replay hp
  case timeOut hp _ => exact answered_replay hp
  all_goals
    simp [settled, History.replay, Registers.after, command, *]

-- Apart from a request that is just being accepted, the registers follow what is seen.
theorem Sound.settled_step (hs : Sound s) (h : Step p s o) :
    o.1.settled = History.replay p s.settled (o.2.map (s.moment, ·)) := by
  cases h
  case request h => exact settled_congr (sparesLoop_of_requestStep h).toSameLoop
  case stop h => exact settled_congr (sparesLoop_of_stopStep h).toSameLoop
  case spawn hc =>
    have hp := hs.claimed _ hc
    simp [settled, History.replay, hp]
  case loop h => exact hs.settled_loop h
  all_goals rfl

theorem Sound.step (hs : Sound s) (h : Step p s o) : Sound o.1 := by
  have hcalls := h.calls
  -- The step by which a start claims the loop stands apart, all others make no such call.
  obtain ⟨hi, -⟩ | ⟨i, hu, ht⟩ := h.claims
  case inr => exact ht ▸ hs.claim hu
  cases h
  case request h => exact hs.spares (sparesLoop_of_requestStep h).toSameLoop hcalls hi
  case stop h => exact hs.spares (sparesLoop_of_stopStep h).toSameLoop hcalls hi
  case claim hu => exact hs.claim hu
  case claimLate hu => exact hs.spares ⟨rfl, rfl, hu.symm⟩ hcalls hi
  case spawn hc => exact hs.spawn hc
  case loop h => exact hs.loop h
  all_goals exact hs.spares ⟨rfl, rfl, rfl⟩ hcalls hi

theorem Run.sound {seen : History} {schedule : Schedule} {m : Moment}
    (run : Run p (.initial schedule m) seen s) : Sound s :=
  run.preserves (fun hs h => hs.step (Step.of_step h)) .initial

theorem Run.settled_eq_replay {seen : History} {schedule : Schedule} {m : Moment}
    (run : Run p (.initial schedule m) seen s) :
    s.settled = History.replay p { schedule } seen := by
  induction run
  case refl => rfl
  case step run h ih =>
    rw [run.sound.settled_step (Step.of_step h), ih, History.replay_append]

end EntryDoor.Scheduler
