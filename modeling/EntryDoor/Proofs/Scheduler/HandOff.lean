import EntryDoor.Proofs.Scheduler.Erasure

namespace EntryDoor.Scheduler

open State

variable {p : Policy} {s t u : State} {o : Outcome} {e : Event} {seen later : History}
  {accepted : List (CallId × Request)} {i j : CallId} {r : Request} {stage : RequestStage}
  {c c' : Call}

namespace Call

-- Whether what a caller knows agrees with the requests accepted. A caller that has dropped its call knows
-- nothing.
def Agrees (accepted : List (CallId × Request)) (i : CallId) : Call → Prop
  | request r .accepted => (i, r) ∈ accepted
  | request r (.replied result) => (i, r) ∈ accepted ∧ DoorResult result
  | request r (.done result) => (i, r) ∈ accepted ∧ DoorResult result
  | request _ .dropped => True
  | _ => ∀ x ∈ accepted, x.1 ≠ i

theorem Agrees.of_moves (h : c.Agrees accepted i) (hm : c.Moves c') : c'.Agrees accepted i := by
  cases hm
  -- Only a request that was accepted goes on to a result.
  case request hf =>
    cases hf
    case finish => exact ⟨h, nofun⟩
    case drop => trivial
    all_goals exact h
  all_goals exact h

-- The acceptance of a request is nothing to the other callers.
theorem Agrees.of_other (h : c.Agrees accepted j) (hij : i ≠ j) :
    c.Agrees (accepted ++ [(i, r)]) j := by
  have hn (h : ∀ x ∈ accepted, x.1 ≠ j) : ∀ x ∈ accepted ++ [(i, r)], x.1 ≠ j := by
    intro x hx
    cases List.mem_append.mp hx with
    | inl hx => exact h x hx
    | inr hx => cases List.mem_singleton.mp hx; exact hij
  cases c
  case request _ stage =>
    cases stage
    case accepted => exact List.mem_append_left _ h
    case replied | done => exact ⟨List.mem_append_left _ h.1, h.2⟩
    case dropped => trivial
    all_goals exact hn h
  all_goals exact hn h

end Call

-- What the callers know agrees with the requests accepted.
structure Agreed (accepted : List (CallId × Request)) (s : State) : Prop where
  once : (accepted.map (·.1)).Nodup
  known : ∀ x ∈ accepted, x.1 < s.calls.length
  call : ∀ (i : CallId) (c : Call), s.calls[i]? = some c → c.Agrees accepted i

namespace Agreed

theorem set (h : Agreed accepted s) (ht : t.calls = s.calls.set i c') (hc : c'.Agrees accepted i) :
    Agreed accepted t where
  once := h.once
  known x hx := by simpa [ht] using h.known x hx
  call j c hj := by
    rw [ht, List.getElem?_set] at hj
    split at hj
    case isTrue hij =>
      subst hij
      split at hj <;> cases hj
      exact hc
    case isFalse => exact h.call j c hj

theorem accept {d : Instant} (h : Agreed accepted s)
    (hc : s.calls[i]? = some (.request r (.queued d)))
    (ht : t.calls = s.calls.set i (.request r .accepted)) : Agreed (accepted ++ [(i, r)]) t := by
  -- The caller was still waiting, so it had not been told before.
  have hi : ∀ x ∈ accepted, x.1 ≠ i := h.call i _ hc
  have hlt := (List.getElem?_eq_some_iff.mp hc).1
  refine ⟨?_, ?_, ?_⟩
  case refine_1 => simpa [List.nodup_append, h.once] using hi
  case refine_2 => simpa [ht, or_imp, forall_and, hlt] using h.known
  case refine_3 =>
    intro j c hj
    rw [ht, List.getElem?_set] at hj
    split at hj
    case isTrue hij =>
      subst hij
      cases hj
      exact List.mem_append_right _ List.mem_cons_self
    case isFalse hij => exact (h.call j c hj).of_other hij

theorem step (h : Agreed accepted s) {now : List (CallId × Request)} (hs : CallsStep s t now) :
    Agreed (accepted ++ now) t := by
  cases hs
  case loop hs =>
    cases hs
    case accept hc ht => exact h.accept hc ht
    case reply hr hc ht =>
      rw [List.append_nil]
      exact h.set ht ⟨h.call _ _ hc, hr⟩
    case same ht =>
      rw [List.append_nil]
      exact ⟨h.once, ht ▸ h.known, ht ▸ h.call⟩
  all_goals rw [List.append_nil]
  case same ht => exact ⟨h.once, ht ▸ h.known, ht ▸ h.call⟩
  case invoke what ht =>
    refine ⟨h.once, fun x hx => ?_, fun j c hj => ?_⟩
    case refine_1 => simpa [ht] using Nat.lt_succ_of_lt (h.known x hx)
    case refine_2 =>
      rw [ht, List.getElem?_append] at hj
      split at hj
      case isTrue => exact h.call j c hj
      -- The new call has a number that no accepted one has.
      case isFalse hlt =>
        have hn : ∀ x ∈ accepted, x.1 ≠ j := fun x hx hxj => hlt (hxj ▸ h.known x hx)
        cases List.mem_singleton.mp (List.mem_of_getElem? hj)
        cases what <;> exact hn
  case move hc ht hm => exact h.set ht ((h.call _ _ hc).of_moves hm)
  case claim hc ht =>
    have hi := h.call _ _ hc
    exact h.set ht hi

end Agreed

theorem Run.agreed {schedule : Schedule} {m : Moment}
    (run : Run p (.initial schedule m) seen s) : Agreed seen.accepted s := by
  induction run
  case refl => exact ⟨.nil, nofun, fun i c h => by simp [State.initial] at h⟩
  case step _ h ih =>
    rw [History.accepted_append, History.accepted_map]
    have hc := (Step.of_step h).calls
    exact ih.step hc

theorem Call.Moves.of_over (ho : stage.isOver) (hm : Call.Moves (.request r stage) c') : False := by
  cases hm
  case request hf => cases hf <;> simp_all [RequestStage.isOver]

theorem ne_of_over (ho : stage.isOver) (hi : s.calls[i]? = some (.request r stage))
    (hj : s.calls[j]? = some c) (hc : c.isOver = false) : j ≠ i := by
  rintro rfl
  cases Option.some.inj (hj.symm.trans hi)
  simp [Call.isOver, ho] at hc

-- A request that is over stays as it is, and is not accepted.
theorem CallsStep.stays {now : List (CallId × Request)} (h : CallsStep s t now) (ho : stage.isOver)
    (hi : s.calls[i]? = some (.request r stage)) :
    t.calls[i]? = some (.request r stage) ∧ ∀ x ∈ now, x.1 ≠ i := by
  cases h
  case same ht => exact ⟨ht ▸ hi, nofun⟩
  case invoke ht =>
    have hlt := (List.getElem?_eq_some_iff.mp hi).1
    exact ⟨by rw [ht, List.getElem?_append_left hlt, hi], nofun⟩
  case move hj ht hm =>
    refine ⟨?_, nofun⟩
    rw [ht, List.getElem?_set_ne, hi]
    rintro rfl
    cases Option.some.inj (hj.symm.trans hi)
    exact hm.of_over ho
  case claim hj ht => exact ⟨by rw [ht, List.getElem?_set_ne (ne_of_over ho hi hj rfl), hi], nofun⟩
  case loop h =>
    cases h
    case same ht => exact ⟨ht ▸ hi, nofun⟩
    case reply _ hj ht =>
      exact ⟨by rw [ht, List.getElem?_set_ne (ne_of_over ho hi hj rfl), hi], nofun⟩
    case accept hj ht =>
      have hij := ne_of_over ho hi hj rfl
      refine ⟨by rw [ht, List.getElem?_set_ne hij, hi], fun x hx => ?_⟩
      cases List.mem_singleton.mp hx
      exact hij

theorem Run.stays (run : Run p s later t) (ho : stage.isOver)
    (hi : s.calls[i]? = some (.request r stage)) :
    t.calls[i]? = some (.request r stage) ∧ i ∉ later.callers := by
  induction run
  case refl => exact ⟨hi, nofun⟩
  case step _ h ih =>
    have ⟨ht, hl⟩ := ih
    have ⟨hu, hn⟩ := (Step.of_step h).calls.stays ho ht
    refine ⟨hu, ?_⟩
    simp only [History.callers_append, List.mem_append, not_or]
    refine ⟨hl, fun hx => ?_⟩
    have ⟨r, hx⟩ := History.mem_callers.mp hx
    rw [History.accepted_map] at hx
    exact hn _ hx rfl

def Request.isBuzz : Request → Bool
  | buzz => true
  | _ => false

namespace History

-- The callers whose buzz was accepted.
def buzzers (seen : History) : List CallId :=
  (seen.accepted.filter (·.2.isBuzz)).map (·.1)

end History

theorem LoopStep.buzzed (h : LoopStep p s o) : o.2.filterMap (·.buzz?) =
    ((o.2.filterMap (·.acceptance?)).filter (·.2.isBuzz)).map (·.1) := by
  cases h
  case accept r _ _ _ => cases r <;> rfl
  case evaluate =>
    rw [evaluate_eq]
    split <;> rfl
  all_goals rfl

theorem Step.buzzed (h : Step p s o) : o.2.filterMap (·.buzz?) =
    ((o.2.filterMap (·.acceptance?)).filter (·.2.isBuzz)).map (·.1) := by
  cases h
  case loop h => exact h.buzzed
  all_goals rfl

theorem Run.buzzed_eq_buzzers (run : Run p s seen t) : seen.buzzed = seen.buzzers := by
  induction run
  case refl => rfl
  case step _ h ih =>
    have hb := (Step.of_step h).buzzed
    simp_all [History.buzzers]

-- What call `i` came to, if it is over.
def State.result? (s : State) (i : CallId) : Option (Except Failure Unit) :=
  s.calls[i]?.bind (·.result?)

-- What a run of a scheduler comes to for those that asked something of it.
structure HandedOff (p : Policy) (schedule : Schedule) (m : Moment) (seen : History) (s : State) :
    Prop where
  -- Nobody is told twice.
  once : seen.callers.Nodup
  -- The effects of the accepted requests are in place in the order of acceptance.
  registers : ¬s.phase.IsAccepting → s.registers = seen.replay p { schedule }
  buzzed : seen.buzzed = seen.buzzers
  -- A request that is taken up and not accepted changes nothing.
  quiet : ∀ t, Run p s [] t → ¬s.phase.IsAccepting → ¬t.phase.IsAccepting →
    t.registers = s.registers
  accepted : ∀ i r stage, s.calls[i]? = some (.request r stage) →
    stage.result? = some (.ok ()) → (i, r) ∈ seen.accepted
  refused : ∀ i r stage cause, s.calls[i]? = some (.request r stage) →
    stage.result? = some (.error (.scheduler cause)) →
    cause = .stopped ∨ cause = .requestTimedOut → i ∉ seen.callers
  -- Nothing happens to a request any more once its caller is gone.
  stays : ∀ i r stage, s.calls[i]? = some (.request r stage) → stage.isOver →
    ∀ later t, Run p s later t →
      t.calls[i]? = some (.request r stage) ∧ i ∉ later.callers
  -- The other requests might as well have been dropped before they were sent.
  without : ∃ t, RunWhere (Event.Keeps seen.callers.contains) p (.initial schedule m) seen t ∧
    t.moment = s.moment ∧ t.settled = s.settled

theorem Run.handedOff {schedule : Schedule} {m : Moment}
    (run : Run p (.initial schedule m) seen s) : HandedOff p schedule m seen s where
  once := run.agreed.once
  registers ha := by rw [← settled_of_not_accepting ha, run.settled_eq_replay]
  buzzed := run.buzzed_eq_buzzers
  quiet t ht hs ha := by
    have hr := (run.trans ht).settled_eq_replay
    rw [List.append_nil, ← run.settled_eq_replay] at hr
    rwa [settled_of_not_accepting hs, settled_of_not_accepting ha] at hr
  accepted i r stage hi hr := by
    have h := run.agreed.call i _ hi
    cases stage <;> simp only [RequestStage.result?, Option.some.injEq, reduceCtorEq] at hr
    exact h.1
  -- What the door answers to a buzz is neither `stopped` nor `requestTimedOut`.
  refused i r stage cause hi hr hc := by
    have h := run.agreed.call i _ hi
    cases stage <;> simp only [RequestStage.result?, Option.some.injEq, reduceCtorEq] at hr
    case refused =>
      intro hm
      have ⟨r, hm⟩ := History.mem_callers.mp hm
      exact h _ hm rfl
    case done =>
      obtain ⟨c, rfl⟩ := h.2 cause hr
      simp at hc
  stays i r stage hi ho later t hl := hl.stays ho hi
  without := run.without fun x hx => by simpa using History.mem_callers.mpr ⟨_, hx⟩

-- A caller asks for a hard reset while the loop is busy with the request of another one, and has given
-- up when the loop gets to it.
def lateReset : List Event :=
  [.invoke .start, .call 0 .advance, .call 0 .advance, .call 0 .advance, .loop .advance,
    .loop .advance, .invoke (.request .recompute), .invoke (.request .reset), .call 1 .advance,
    .call 2 .advance, .call 1 .advance, .loop (.wake .request), .call 2 .advance, .loop .advance,
    .call 1 .advance, .pass (.ofSeconds 5) (.ofSeconds 5), .call 2 .giveUp, .loop .advance,
    .loop .advance, .loop (.answer (.ok ())), .loop .advance, .loop .advance,
    .loop (.wake .request), .loop .advance]

theorem handedOff_lateReset : ∃ seen s,
    HandedOff {} closed ⟨0, .ofSeconds 0⟩ seen s ∧ seen.callers = [1] ∧
      (s.result? 1 matches some (.ok _)) ∧
      (s.result? 2 matches some (.error (.scheduler .requestTimedOut))) := by
  have h : ∃ x ∈ (State.initial closed ⟨0, .ofSeconds 0⟩).follow {} (fun _ _ => True) lateReset,
      x.1.callers = [1] ∧ (x.2.result? 1 matches some (.ok _)) ∧
        (x.2.result? 2 matches some (.error (.scheduler .requestTimedOut))) := by
    decide +kernel
  have ⟨x, hx, h⟩ := h
  have run := (RunWhere.of_follow hx).run
  refine ⟨x.1, x.2, run.handedOff, ?_⟩
  exact h

end EntryDoor.Scheduler
