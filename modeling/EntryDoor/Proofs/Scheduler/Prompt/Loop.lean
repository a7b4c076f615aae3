import EntryDoor.Proofs.Scheduler.Prompt.Callers

namespace EntryDoor.Scheduler

open State

variable {w : World} {p : Policy} {s t : State} {o : Outcome} {e : Event} {i : CallId} {r : Request}

-- What the loop does where it has a choice, or where time matters.
structure LoopStep.Orderly (w : World) (p : Policy) (s : State) (o : Outcome) : Prop where
  taken : ∀ wake, s.phase = .waiting wake → o.1.phase.IsAccepting → s.stopping = false
  timer : ∀ wake, s.phase = .waiting wake → o.1.phase = .evaluating →
    s.stopping = false ∧ s.slot = none ∧ w.ring wake ≤ s.moment.instant
  answer : ∀ purpose c deadline, s.phase = .commanding purpose c deadline →
    o = s.answered p ((w.door s.moment c).mapError .hardware) purpose c
  settle : ∀ due rest wake, s.phase = .settling due rest wake → w.ring due ≤ s.moment.instant
  plan : ∀ validUntil, s.phase = .planning validUntil →
    s.moment.instant < w.ring (p.wakeAt validUntil s.moment)

theorem LoopStep.Orderly.of_wakeUp {wake : Instant} {cause : Wake} (hp : s.phase = .waiting wake)
    (ho : (LoopEvent.wake cause).Orderly w p s) (h : s.wakeUp wake cause = some o) :
    LoopStep.Orderly w p s o := by
  have hw : (o.1.phase.IsAccepting → s.stopping = false) ∧ (o.1.phase = .evaluating →
      s.stopping = false ∧ s.slot = none ∧ w.ring wake ≤ s.moment.instant) := by
    cases cause with
    | shutdown | abandoned =>
      simp only [wakeUp, Option.ite_none_right_eq_some] at h
      obtain ⟨-, h⟩ := h
      cases h
      exact ⟨False.elim, by simp⟩
    | request =>
      obtain ⟨i, -, h⟩ := Option.bind_eq_some_iff.mp h
      split at h <;> cases h
      exact ⟨fun _ => by simpa [LoopEvent.Orderly, hp] using ho, by simp⟩
    | timer =>
      simp only [wakeUp, Option.ite_none_right_eq_some] at h
      obtain ⟨-, h⟩ := h
      cases h
      exact ⟨False.elim, fun _ => by simpa [LoopEvent.Orderly, hp] using ho⟩
  refine ⟨fun wake' hp' ha => hw.1 ha, fun wake' hp' he => ?_, fun _ _ _ hp' => ?_,
    fun _ _ _ hp' => ?_, fun _ hp' => ?_⟩
  case refine_1 => cases hp.symm.trans hp'; exact hw.2 he
  all_goals simp [hp] at hp'

theorem LoopStep.Orderly.of_event {e : LoopEvent} (ho : e.Orderly w p s)
    (h : s.loopStep p e = some o) : LoopStep.Orderly w p s o := by
  cases e with
  | advance =>
    refine ⟨fun _ hp => ?_, fun _ hp => ?_, fun _ _ _ hp => ?_, fun _ _ _ hp => ?_, fun _ hp => ?_⟩
    case refine_4 | refine_5 => simpa [LoopEvent.Orderly, hp] using ho
    all_goals simp [loopStep, advance, hp] at h
  | wake cause =>
    simp only [loopStep] at h
    split at h
    case h_1 hp => exact .of_wakeUp hp ho h
    case h_2 => cases h
  | answer result =>
    simp only [loopStep] at h
    split at h
    case h_1 hp =>
      cases h
      refine ⟨fun _ hp' => ?_, fun _ hp' => ?_, fun _ _ _ hp' => ?_, fun _ _ _ hp' => ?_,
        fun _ hp' => ?_⟩
      case refine_3 =>
        cases hp.symm.trans hp'
        simp only [LoopEvent.Orderly, hp] at ho
        rw [ho]
      all_goals simp [hp] at hp'
    case h_2 => cases h
  | timeOut =>
    simp only [loopStep] at h
    split at h
    case h_1 hp => simp [LoopEvent.Orderly, hp] at ho
    case h_2 => cases h

section

variable {le : LoopEvent} {u : State} {seen now : List Occurrence}

-- The loop goes on, though not further than to look for something to do.
theorem Follows.silent (hr : Ready w s) (hb : t.bare = s.bare)
    (hacc : t.phase.IsAccepting → s.stopping = false) (hc : t.calls = s.calls)
    (ha : t.ahead = s.ahead) (hl : t.line = s.line) : Follows w p s (.loop le) (t, []) :=
  .unseen hr rfl rfl hb hacc (fun _ _ hj _ => ha ▸ hj) (fun _ => about_of_same hc)
    fun _ => by rw [queue, queue, ha, hl]

-- The loop goes on with what it was about to do.
theorem Follows.onward (hn : s.gist.next w p = some (Gist.after s.pending (u, seen)))
    (hb : t.bare = u.bare) (hc : t.calls = s.calls) (ha : t.ahead = s.ahead) (hl : t.line = s.line)
    (hd : t.deaf = false → s.deaf = false)
    (hm : History.moves (now.map (s.moment, ·)) = History.moves (seen.map (s.moment, ·)))
    (hr : Ready w t) : Follows w p s (.loop le) (t, now) := by
  refine .next rfl (hn.trans (congrArg some (Prod.ext (Gist.of_congr hb.symm fun ht => ?_) rfl))) hm hr
  have hw : t.waiting? = s.waiting? := about_of_same hc
  rw [hw, pending, hd ht, if_neg Bool.false_ne_true, queue, queue, ha, hl]

-- The loop is about to end.
theorem Follows.leave (hn : s.gist.next w p = some (Gist.after [] (u, []))) (hb : t.bare = u.bare)
    (ht : t.phase = .leaving) : Follows w p s (.loop le) (t, []) := by
  have hd : t.deaf = true := by simp [deaf, ht, Phase.isLeaving]
  have hg : Gist.of u [] = t.gist := Gist.of_congr hb.symm fun hf => absurd hf (by simp [hd])
  exact .next rfl (hn.trans (congrArg some (Prod.ext hg rfl))) rfl
    (.of_not_due (by simp [ht, Phase.bare]) (by simp [ht]))

end

section

variable {le : LoopEvent} {wake : Instant} (hp : s.phase = .waiting wake)

include hp

-- Nobody waits any more.
theorem Follows.abandon (ha : s.Abandoned) :
    Follows w p s (.loop le) ({ s with phase := .leaving }, []) := by
  have hw : ∀ i, s.waiting? i = none := by
    intro i
    cases hc : s.calls[i]? with
    | none => simp [waiting?, about, hc]
    | some c =>
      have hover := ha.2 c (List.mem_of_getElem? hc)
      rw [waiting?, about_of_call hc]
      exact Call.waiting?_of_over hover
  have hpn : s.pending = [] := by simp [pending, hw]
  have hlook : s.gist.look w p wake =
      some (Gist.after [] ({ s.gist.state with phase := .leaving }, [])) := by
    cases hst : s.stopping with
    | true => exact Gist.look_of_stopping hst
    | false => exact Gist.look_of_released hst hpn ha.1
  refine .leave ((Gist.next_of_waiting (gist_phase_of hp)).trans hlook) ?_ rfl
  simp [State.bare, gist_registers, settled, hp, Phase.bare]

-- A loop that waits finds nothing to do before its timer goes off.
theorem Follows.timer (hr : Ready w s)
    (ho : s.stopping = false ∧ s.slot = none ∧ w.ring wake ≤ s.moment.instant) :
    Follows w p s (.loop le) ({ s with phase := .evaluating }, []) := by
  obtain ⟨hst, hslot, hring⟩ := ho
  have hd : s.deaf = false := by simp [deaf, hst, hp, Phase.isLeaving]
  have hpn : s.pending = [] := by
    refine Classical.not_not.mp fun hpn => ?_
    obtain ⟨i, hi, -⟩ := hr.first wake (by rw [hp]; rfl) hring hpn
    simp [ahead, hp, hslot] at hi
  have hrel : s.released = false := hr.owned wake (by rw [hp]; rfl) hring hst
  have hlook := Gist.look_of_due (w := w) (p := p) (g := s.gist) hst hpn hrel hring
  have hn := (Gist.next_of_waiting (gist_phase_of hp)).trans hlook
  rw [← hpn] at hn
  refine .onward hn ?_ rfl (by simp [ahead, hp]) rfl (fun _ => hd) rfl
    (.of_not_due (by simp [Phase.bare]) (by simp))
  simp [State.bare, gist_registers, settled, hp, Phase.bare]

end

theorem State.evaluate_bare (hp : s.phase = .evaluating) :
    (s.bare.evaluate p).2 = (s.evaluate p).2 ∧
      (s.evaluate p).1.bare = (s.bare.evaluate p).1.bare := by
  have hr : s.bare.registers = s.registers := settled_of_not_accepting (by simp [hp])
  have hm : s.bare.moment = s.moment := rfl
  have hs : s.bare.status = s.status := by rw [status, status, hr, hm]
  rw [evaluate_eq, evaluate_eq, hr, hs, hm]
  split <;> simp [State.bare, settled, Phase.bare]

theorem Follows.evaluate {le : LoopEvent} (hp : s.phase = .evaluating) :
    Follows w p s (.loop le) (s.evaluate p) := by
  obtain ⟨hseen, hb⟩ := s.evaluate_bare (p := p) hp
  have hsame : (s.evaluate p).1.ahead = s.ahead ∧ (s.evaluate p).1.line = s.line ∧
      ((s.evaluate p).1.deaf = false → s.deaf = false) := by
    rw [evaluate_eq]
    split <;> simp [ahead, deaf, hp, Phase.isLeaving]
  have hm : History.moves ((s.evaluate p).2.map (s.moment, ·)) =
      History.moves ((s.bare.evaluate p).2.map (s.moment, ·)) := by rw [hseen]
  have hr : Ready w (s.evaluate p).1 := by
    rcases s.evaluate_phase (p := p) with h | ⟨_, h⟩ <;>
      exact .of_not_due (by simp [h, Phase.bare]) (by simp [h])
  exact .onward (Gist.next_of_evaluating (gist_phase_of hp)) hb evaluate_calls hsame.1 hsame.2.1 hsame.2.2 hm hr

section

variable {le : LoopEvent} {command : Command} {deadline : Instant}

-- Only the caller sees what a buzz came to.
theorem Follows.answeredBuzz {wake : Instant} {result : Except Failure Unit} (hr : Ready w s)
    (hp : s.phase = .commanding (.buzz i wake) command deadline) :
    Follows w p s (.loop le) (s.answered p result (.buzz i wake) command) := by
  have hb : (s.afterCommand p result (.buzz i wake)).bare = s.bare := by
    simp only [afterCommand, State.bare, settled, hp, reply_registers, Phase.bare]
    unfold reply
    split <;> rfl
  have hsame : (s.afterCommand p result (.buzz i wake)).ahead = s.ahead ∧
      (s.afterCommand p result (.buzz i wake)).line = s.line := by
    simp only [afterCommand, reply]
    split <;> simp [ahead, hp, setStage]
  have hw : (s.afterCommand p result (.buzz i wake)).waiting? = s.waiting? := by
    rcases s.afterCommand_calls (p := p) with hc | ⟨i, r, hi, hc⟩
    case inl => exact about_of_same hc
    case inr => exact about_of_set_same hi hc rfl
  exact .unseen hr rfl rfl hb False.elim (fun _ j hj _ => hsame.1 ▸ hj) (fun _ => hw)
    fun _ => by rw [queue, queue, hsame.1, hsame.2]

-- What any other command comes to is decided by the time.
theorem Follows.answered {purpose : Purpose} (hr : Ready w s)
    (hp : s.phase = .commanding purpose command deadline) : Follows w p s (.loop le)
      (s.answered p ((w.door s.moment command).mapError .hardware) purpose command) := by
  have hd (h : s.stopping = false) : s.deaf = false := by simp [deaf, h, hp, Phase.isLeaving]
  rcases purpose with validUntil | ⟨i, wake⟩ | ⟨_ | ⟨c', rest⟩, wake⟩
  case buzz => exact .answeredBuzz hr hp
  all_goals
    refine .onward (Gist.next_of_commanding (gist_phase_of hp)) ?_ rfl ?_ rfl
      (fun ht => hd ?_) rfl (.of_not_due ?_ ?_)
    case refine_1 => simp [afterCommand, State.bare, gist_registers, settled, Phase.bare, hp]
    case refine_2 => simp [ahead, hp, afterCommand]
    case refine_3 => simpa [afterCommand, deaf, Phase.isLeaving] using ht
    case refine_4 => simp [afterCommand, Phase.bare]
    case refine_5 => simp [afterCommand]

end

section

variable {le : LoopEvent} {wake d : Instant} {before : Registers} {stage : RequestStage}
  (hp : s.phase = .accepting i wake before)

include hp

theorem queue_of_accepting : s.queue = i :: (s.slot.toList ++ s.line) := by
  simp [queue, ahead, hp]

-- The loop lets go of a request of which nothing is to be noticed.
theorem Follows.letGo {now : List Occurrence} (hr : Ready w s) (hi : s.waiting? i = none)
    (hm : History.moves (now.map (s.moment, ·)) = []) (hb : t.bare = s.bare)
    (ha : t.ahead = s.slot.toList) (hl : t.line = s.line) (hacc : ¬t.phase.IsAccepting)
    (hw : t.waiting? = s.waiting?) : Follows w p s (.loop le) (t, now) := by
  refine .unseen hr rfl hm hb (fun h => absurd h hacc) (fun _ j hj hx => ?_) (fun _ => hw) fun _ => ?_
  case refine_1 =>
    rw [ha]
    have hj : j ∈ i :: s.slot.toList := by simpa [ahead, hp] using hj
    exact (List.mem_cons.mp hj).resolve_left fun hji => hx (hji ▸ hi)
  case refine_2 => rw [queue_of_accepting hp, queue, ha, hl, List.filterMap_cons, hi]

theorem Follows.acceptBuzz (hso : Sound s) (hr : Ready w s)
    (hc : s.calls[i]? = some (.request .buzz (.queued d))) :
    Follows w p s (.loop le) (((s.setStage i .buzz .accepted).carryOut p i wake .buzz).1,
      .accepted i .buzz :: ((s.setStage i .buzz .accepted).carryOut p i wake .buzz).2) := by
  have hb : ((s.setStage i .buzz .accepted).carryOut p i wake .buzz).1.bare = s.bare := by
    have hreg : s.registers = before := hso.eq_install hp hc
    simp [State.bare, settled, hp, hreg, carryOut, command, setStage, Phase.bare]
  exact .letGo hp hr (about_of_call hc) rfl hb rfl rfl id (about_of_set_same hc rfl rfl)

-- Any other request is pending, and the first of them.
theorem Follows.accept (h : Queued s) (hso : Sound s) (hr : Ready w s) (hbuzz : r.isBuzz = false)
    (hc : s.calls[i]? = some (.request r (.queued d))) :
    Follows w p s (.loop le) (((s.setStage i r .accepted).carryOut p i wake r).1,
      .accepted i r :: ((s.setStage i r .accepted).carryOut p i wake r).2) := by
  have hst : s.stopping = false := hr.taken (by simp [hp])
  have hd : s.deaf = false := by simp [deaf, hst, hp, Phase.isLeaving]
  have hwi : s.waiting? i = some (r, d) := by
    rw [waiting?, about_of_call hc, Call.waiting?, hbuzz]
    rfl
  have hpending : s.pending = (r, d) :: (s.slot.toList ++ s.line).filterMap s.waiting? := by
    rw [pending, hd, if_neg Bool.false_ne_true, queue_of_accepting hp, List.filterMap_cons, hwi]
  have hnext := (Gist.next_of_waiting (g := s.gist) (w := w) (p := p) (gist_phase_of hp)).trans
    (Gist.look_of_pending hst hpending)
  have hqueue : ((s.setStage i r .accepted).carryOut p i wake r).1.queue = s.slot.toList ++ s.line := by
    cases r <;> rfl
  have hi : i ∉ s.slot.toList ++ s.line := by
    have hnodup := h.nodup
    rw [queue_of_accepting hp] at hnodup
    exact (List.nodup_cons.mp hnodup).1
  have hcalls : ((s.setStage i r .accepted).carryOut p i wake r).1.calls =
      s.calls.set i (.request r .accepted) := carryOut_calls
  have hw : ∀ j, i ≠ j → ((s.setStage i r .accepted).carryOut p i wake r).1.waiting? j =
      s.waiting? j := fun j hij => by
    rw [waiting?, about_of_set hc hcalls, if_neg hij]
    rfl
  have hreg : s.registers = before.install r := hso.eq_install hp hc
  refine .next rfl (hnext.trans (congrArg some (Prod.ext (Gist.of_congr ?_ fun _ => ?_) rfl))) ?_ ?_
  case refine_1 =>
    cases r <;>
      simp [State.bare, gist_registers, settled, hp, hreg, carryOut, command, setStage, Phase.bare]
  case refine_2 => rw [hqueue, filterMap_of_not_mem hw hi]
  case refine_3 => cases r <;> rfl
  case refine_4 =>
    cases r with
    | buzz => cases hbuzz
    | _ => exact .of_not_due (by simp [carryOut, command, Phase.bare]) (by simp [carryOut, command])

-- The request was given up, so it is not among those that are pending.
theorem Follows.withdraw (h : Queued s) (hso : Sound s) (hr : Ready w s)
    (hc : s.calls[i]? = some (.request r stage)) (hn : ∀ d, stage ≠ .queued d) :
    Follows w p s (.loop le)
      ({ s with registers := s.registers.withdraw before r, phase := .polling wake }, []) := by
  have hwi : s.waiting? i = none := by
    have hns := h.ahead_not_sending (i := i) (by simp [ahead, hp])
    rw [standing_of_call hc] at hns
    rw [waiting?, about_of_call hc]
    cases stage <;> simp_all [Call.waiting?]
  refine .letGo hp hr hwi rfl ?_ (by simp [ahead]) rfl id rfl
  simp [State.bare, settled, hp, hso.withdraw_eq hp hc, Phase.bare]

end

theorem Follows.loop {le : LoopEvent} (h : Queued s) (hso : Sound s) (hr : Ready w s)
    (hs : LoopStep p s o) (ho : LoopStep.Orderly w p s o) : Follows w p s (.loop le) o := by
  cases hs
  case begin hp | wait hp _ | shutdown hp _ | announce hp =>
    exact .silent hr (by simp [State.bare, settled, hp, Phase.bare]) False.elim rfl
      (by simp [ahead, hp]) rfl
  case receive hp hi hc =>
    exact .silent hr (by simp [State.bare, settled, hp, Phase.bare]) (fun _ => ho.taken _ hp trivial)
      rfl (by simp [ahead, hp, hi]) rfl
  case finish hp =>
    have hd : s.deaf = true := by simp [deaf, hp, Phase.isLeaving]
    refine .unseen hr rfl rfl (by simp [State.bare, settled, hp, Phase.bare]) False.elim ?_ ?_ ?_
    all_goals simp [hd]
  case leave wake hp hst =>
    refine .leave ((Gist.next_of_waiting (gist_phase_of hp)).trans (Gist.look_of_stopping hst)) ?_ rfl
    simp [State.bare, gist_registers, settled, hp, Phase.bare]
  case abandon hp ha => exact .abandon hp ha
  case timer wake hp _ => exact .timer hp hr (ho.timer wake hp rfl)
  case accept r _ hp hc =>
    cases hbuzz : r.isBuzz with
    | true =>
      cases r <;> cases hbuzz
      exact .acceptBuzz hp hso hr hc
    | false => exact .accept hp h hso hr hbuzz hc
  case withdraw hp hc hn => exact .withdraw hp h hso hr hc hn
  case yield wake hp hst =>
    refine .onward (Gist.next_of_carriedOut (gist_phase_of hp)) ?_ rfl
      (by simp [ahead, hp]) rfl (fun ht => by simp [deaf, hst] at ht) rfl (.of_stopping hst False.elim)
    simp [State.bare, gist_registers, settled, hp, Phase.bare, hst]
  case goOn wake hp hst =>
    refine .onward (Gist.next_of_carriedOut (gist_phase_of hp)) ?_ rfl
      (by simp [ahead, hp]) rfl (fun ht => by simp [deaf, hst, hp, Phase.isLeaving]) rfl
      (.of_not_due (by simp [Phase.bare]) (by simp))
    simp [State.bare, gist_registers, settled, hp, Phase.bare, hst]
  case evaluate hp => exact .evaluate hp
  case settle due c rest wake hp hd =>
    refine .onward (Gist.next_of_settled (gist_phase_of hp) (ho.settle _ _ _ hp) hd) ?_ rfl ?_ rfl ?_ rfl
      (.of_not_due ?_ ?_)
    case refine_1 => simp [State.bare, gist_registers, settled, hp, Phase.bare]
    case refine_2 => simp [ahead, hp]
    case refine_3 => simp [deaf, hp, Phase.isLeaving]
    case refine_4 => simp [Phase.bare]
    case refine_5 => simp
  case plan v hp =>
    refine .onward (Gist.next_of_planning (gist_phase_of hp)) ?_ rfl (by simp [ahead, hp]) rfl ?_ rfl ?_
    case refine_1 => simp [State.bare, gist_registers, settled, hp, Phase.bare]
    case refine_2 => simp [deaf, hp, Phase.isLeaving]
    case refine_3 => exact .of_not_due (by simpa [Phase.bare] using ho.plan v hp) (by simp)
  case answer hp => rw [ho.answer _ _ _ hp]; exact .answered hr hp
  case timeOut hp hd => rw [ho.answer _ _ _ hp]; exact .answered hr hp

-- Time passes only at rest.
theorem Follows.pass {elapsed : Duration} {clock : Timestamp} (h : Queued s) (hk : s.StopsKnow)
    (ho : (Event.pass elapsed clock).Orderly w p s) :
    Follows w p s (.pass elapsed clock) (s.later ⟨s.moment.instant + elapsed.nanos, clock⟩, []) := by
  obtain ⟨hz, hclock, hquiet⟩ := ho
  obtain ⟨n, hn⟩ : ∃ n, elapsed.nanos = n + 1 := by
    refine Nat.exists_eq_add_one_of_ne_zero fun h0 => hz ?_
    cases elapsed
    exact congrArg Duration.mk h0
  subst hclock
  refine ⟨?_, ?_⟩
  case refine_1 =>
    rw [hn] at hquiet ⊢
    exact hquiet.pass h hk
  case refine_2 =>
    have hloop := hquiet.1
    unfold LoopRests at hloop
    split at hloop
    -- A loop that waits does so because nothing is pending.
    case h_2 hp =>
      have hpn : s.pending = [] := hquiet.pending_eq_nil h hp (by simp)
      have hrel : s.released = false := hquiet.released_eq_false h hk hp
      exact ⟨fun ha => by simp [later, hp] at ha, fun _ _ _ hn => absurd hpn hn, fun _ _ _ _ => hrel⟩
    case h_5 => exact hloop.elim
    case h_1 hp | h_3 hp | h_4 hp =>
      exact .of_not_due (by simp [later, hp, Phase.bare]) (by simp [later, hp])

theorem Follows.step (h : Queued s) (hk : s.StopsKnow) (hso : Sound s) (hr : Ready w s)
    (ho : e.Orderly w p s) (hf : e.StartsClear s) (hs : s.step p e = some o) :
    Follows w p s e o := by
  cases e with
  | pass elapsed clock => cases hs; exact .pass h hk ho
  | release =>
    cases hs
    have hquiet : s.AtRest w := ho
    have hb : { s.bare with released := true } = { s.bare.bare with released := true } := by
      rw [bare_bare]
    refine .take rfl (hquiet.next_eq_none h hk (Nat.lt_succ_self _) nofun) (Gist.of_congr hb fun hd => ?_)
      (.of_rests hquiet.1 rfl (Nat.lt_succ_self _))
    have hd : s.deaf = false := deaf_bare.symm.trans hd
    rw [gist_pending, pending, hd, if_neg Bool.false_ne_true]
    rfl
  | invoke what =>
    simp only [State.step] at hs
    split at hs <;> cases hs
    have hw : State.waiting? { s with calls := s.calls ++ [what.call] } = s.waiting? :=
      about_of_append rfl (by cases what <;> rfl)
    exact .call hr rfl rfl rfl (fun _ hj => hj) (fun _ => hw) fun _ => rfl
  | call i ce =>
    obtain ⟨t, ht, rfl⟩ := Option.map_eq_some_iff.mp hs
    exact .ofCall h hk hso hr ho hf ht
  | loop le => exact .loop h hso hr (.of_loopStep hs) (.of_event ho hs)

-- By induction on the run, with `Ready` as the invariant.
theorem Driven.follows {schedule : Schedule} {m : Moment} {inputs : List (Instant × Stimulus)}
    {seen : History}
    (run : Driven (fun s e => e.Apart w p s) p (.initial schedule m) inputs seen s) :
    Gist.Run w p (State.initial schedule m).gist inputs seen.moves s.gist ∧ Ready w s := by
  induction run with
  | refl => exact ⟨.refl, .initial⟩
  | step run ha hs ih =>
    obtain ⟨hrun, hr⟩ := ih
    have hf := Follows.step run.run.queued run.run.stopsKnow run.run.sound hr ha.1 ha.2 hs
    rw [History.moves_append]
    exact ⟨hrun.trans hf.run, hf.ready⟩

end EntryDoor.Scheduler
