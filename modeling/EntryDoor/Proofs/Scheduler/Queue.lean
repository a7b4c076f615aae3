import EntryDoor.Proofs.Scheduler.Invariants

namespace EntryDoor.Scheduler

open State

variable {p : Policy} {s t : State} {o : Outcome} {i j : CallId} {r : Request}
  {stage : RequestStage} {ce : CallEvent} {c c' : Call}

-- All that a caller can do about its request.
inductive RequestStep (p : Policy) (s : State) (i : CallId) (r : Request) :
    RequestStage → CallEvent → State → Prop
  | turnAway (hs : s.stopping = true) :
      RequestStep p s i r .created .advance (s.setStage i r (.refused .stopped))
  | send (hs : s.stopping = false) :
      RequestStep p s i r .created .advance
        { s.setStage i r (.sending (s.moment.instant.after p.requestTimeout)) with
          line := s.line ++ [i] }
  | enqueue {d : Instant} {rest : List CallId} (hq : s.slot = none) (hl : s.line = i :: rest)
      (he : s.phase.hasEnded = false) :
      RequestStep p s i r (.sending d) .advance
        { s.setStage i r (.queued d) with slot := some i, line := rest }
  | finish (hr : r ≠ .buzz) :
      RequestStep p s i r .accepted .advance (s.setStage i r (.done (.ok ())))
  | finishBuzz {result : Except Failure Unit} :
      RequestStep p s i r (.replied result) .advance (s.setStage i r (.done result))
  | leaveLine {d : Instant} {cause : SchedulerError} (h : s.giveUpCause? d = some cause) :
      RequestStep p s i r (.sending d) .giveUp
        { s.setStage i r (.refused cause) with line := s.line.erase i }
  | leaveQueue {d : Instant} {cause : SchedulerError} (h : s.giveUpCause? d = some cause) :
      RequestStep p s i r (.queued d) .giveUp (s.setStage i r (.refused cause))
  | drop {stage : RequestStage} (h : stage.isOver = false) :
      RequestStep p s i r stage .drop { s.setStage i r .dropped with line := s.line.erase i }

theorem RequestStep.of_requestStep (h : s.requestStep p i r stage ce = some t) :
    RequestStep p s i r stage ce t := by
  cases ce
  case drop =>
    simp only [requestStep] at h
    split at h <;> cases h
    case isFalse hs => exact .drop (by simpa using hs)
  all_goals cases stage <;> simp only [requestStep, reduceCtorEq] at h
  case advance.created =>
    split at h <;> cases h
    case isTrue hs => exact .turnAway hs
    case isFalse hs => exact .send (by simpa using hs)
  case advance.sending =>
    split at h <;> cases h
    case isTrue hq =>
      obtain ⟨hq, hl, he⟩ := hq
      obtain ⟨rest, hl⟩ := List.head?_eq_some_iff.mp hl
      rw [hl]
      exact .enqueue hq hl (by simpa using he)
  case advance.accepted => cases r <;> cases h <;> exact .finish (by simp)
  case advance.replied => cases h; exact .finishBuzz
  case giveUp.sending =>
    obtain ⟨cause, hc, rfl⟩ := Option.map_eq_some_iff.mp h
    exact .leaveLine hc
  case giveUp.queued =>
    obtain ⟨cause, hc, rfl⟩ := Option.map_eq_some_iff.mp h
    exact .leaveQueue hc

-- How far a request has come on its way to the loop, once it has been sent.
inductive Standing
  | sending
  | queued
  | past

@[simp] def RequestStage.standing : RequestStage → Option Standing
  | created => none
  | sending _ => some .sending
  | queued _ => some .queued
  | _ => some .past

@[simp] def Call.standing : Call → Option Standing
  | request _ stage => stage.standing
  | _ => none

-- The caller of the request that the loop has taken up, and not accepted yet.
@[simp] def Phase.hand? : Phase → Option CallId
  | accepting i .. => some i
  | _ => none

namespace State

section

variable {α : Type} {f : Call → Option α}

-- What `f` says of call `i`, if it has been made.
def about (f : Call → Option α) (s : State) (i : CallId) : Option α :=
  s.calls[i]?.bind f

theorem about_of_call (h : s.calls[i]? = some c) : s.about f i = f c := by
  rw [about, h, Option.bind_some]

theorem about_of_same (h : t.calls = s.calls) : t.about f = s.about f := by
  funext i
  rw [about, about, h]

theorem about_of_set (hi : s.calls[i]? = some c) (h : t.calls = s.calls.set i c') :
    t.about f j = if i = j then f c' else s.about f j := by
  by_cases hij : i = j
  case pos =>
    subst hij
    simp [about, h, List.getElem?_set_self (List.getElem?_eq_some_iff.mp hi).1]
  case neg => simp [about, h, hij]

-- A call that goes on, though `f` does not notice.
theorem about_of_set_same (hi : s.calls[i]? = some c) (h : t.calls = s.calls.set i c')
    (hc : f c' = f c) : t.about f = s.about f := by
  funext j
  rw [about_of_set hi h]
  split
  case isTrue hij => rw [hc, ← hij, about_of_call hi]
  case isFalse => rfl

-- A call that is made, though `f` does not notice.
theorem about_of_append (h : t.calls = s.calls ++ [c]) (hc : f c = none) :
    t.about f = s.about f := by
  funext j
  rw [about, about, h, List.getElem?_append]
  split
  case isTrue => rfl
  case isFalse hj =>
    rw [List.getElem?_eq_none (Nat.le_of_not_lt hj)]
    cases hn : [c][j - s.calls.length]? with
    | none => rfl
    | some d =>
      cases List.mem_singleton.mp (List.mem_of_getElem? hn)
      exact hc

end

def standing (s : State) : CallId → Option Standing :=
  s.about Call.standing

-- The callers whose request has left the line.
def ahead (s : State) : List CallId :=
  s.phase.hand?.toList ++ s.slot.toList

def queue (s : State) : List CallId :=
  s.ahead ++ s.line

theorem standing_of_call (h : s.calls[i]? = some (.request r stage)) :
    s.standing i = stage.standing :=
  about_of_call h

theorem standing_eq_sending_iff : s.standing i = some .sending ↔
    ∃ r d, s.calls[i]? = some (.request r (.sending d)) := by
  refine ⟨fun h => ?_, fun ⟨r, d, h⟩ => standing_of_call h⟩
  obtain ⟨c, hc, h⟩ := Option.bind_eq_some_iff.mp h
  cases c with
  | request r stage => cases stage <;> simp at h; exact ⟨r, _, hc⟩
  | _ => simp at h

end State

-- The requests are where they say that they are.
structure Queued (s : State) : Prop where
  nodup : s.queue.Nodup
  sending : ∀ i, i ∈ s.line ↔ s.standing i = some .sending
  sent : ∀ i ∈ s.queue, s.standing i ≠ none
  -- A loop that has ended has emptied the queue.
  queued : ∀ i, s.standing i = some .queued → i ∈ s.ahead ∨ s.phase.hasEnded = true

namespace Queued

theorem initial {schedule : Schedule} {m : Moment} : Queued (.initial schedule m) where
  nodup := .nil
  sending _ := by simp [State.initial, standing, about]
  sent := nofun
  queued _ := by simp [State.initial, standing, about]

variable (h : Queued s)

include h

-- A step that moves nothing in the queue.
theorem same (hq : t.ahead = s.ahead) (hl : t.line = s.line) (ht : t.standing = s.standing)
    (he : s.phase.hasEnded = true → t.phase.hasEnded = true) : Queued t where
  nodup := by rw [queue, hq, hl]; exact h.nodup
  sending i := by rw [hl, ht]; exact h.sending i
  sent i hi := by
    rw [queue, hq, hl] at hi
    rw [ht]
    exact h.sent i hi
  queued i hi := by
    rw [hq]
    exact (h.queued i (ht ▸ hi)).imp_right he

theorem erase_line (hi : s.standing i ≠ some .sending) : s.line.erase i = s.line :=
  List.erase_of_not_mem fun hm => hi ((h.sending i).mp hm)

-- What has left the line is not in it.
theorem ahead_not_sending (hi : i ∈ s.ahead) : s.standing i ≠ some .sending := by
  intro hs
  have hl := (h.sending i).mpr hs
  exact (List.nodup_append.mp h.nodup).2.2 i hi i hl rfl

section

variable (hi : s.calls[i]? = some c) (ht : t.calls = s.calls.set i c')

include hi ht

-- A caller whose request is not on its way any more, and that is not in line.
theorem past (hc : c'.standing = some .past) (hq : t.ahead.Sublist s.ahead)
    (ha : ∀ j ∈ s.ahead, j ≠ i → j ∈ t.ahead) (hl : t.line = s.line.erase i)
    (he : s.phase.hasEnded = true → t.phase.hasEnded = true) : Queued t := by
  have hst : ∀ j, t.standing j = if i = j then some .past else s.standing j :=
    fun j => by rw [standing, about_of_set hi ht, hc]; rfl
  have hsub : t.queue.Sublist s.queue := by
    rw [queue, queue, hl]
    exact hq.append List.erase_sublist
  have hline : s.line.Nodup := (List.nodup_append.mp h.nodup).2.1
  refine ⟨hsub.nodup h.nodup, fun j => ?_, fun j hj => ?_, fun j hj => ?_⟩
  case refine_1 =>
    rw [hl, hst, hline.mem_erase_iff, h.sending j]
    by_cases hij : i = j
    case pos => simp [hij]
    case neg => simp [hij, Ne.symm hij]
  case refine_2 =>
    rw [hst]
    split
    case isTrue => nofun
    case isFalse => exact h.sent j (hsub.subset hj)
  case refine_3 =>
    rw [hst] at hj
    split at hj
    case isTrue => cases hj
    case isFalse hij => exact (h.queued j hj).imp (fun hm => ha j hm (Ne.symm hij)) he

theorem send (hc : c.standing = none) (hc' : c'.standing = some .sending) (hq : t.ahead = s.ahead)
    (hl : t.line = s.line ++ [i]) (hp : t.phase = s.phase) : Queued t := by
  have hst : ∀ j, t.standing j = if i = j then some .sending else s.standing j :=
    fun j => by rw [standing, about_of_set hi ht, hc']; rfl
  -- The caller has not been there before.
  have hn : i ∉ s.queue := fun hm => h.sent i hm ((about_of_call hi).trans hc)
  have hqueue : t.queue = s.queue ++ [i] := by rw [queue, queue, hq, hl, List.append_assoc]
  refine ⟨?_, fun j => ?_, fun j hj => ?_, fun j hj => ?_⟩
  case refine_1 =>
    rw [hqueue]
    refine List.nodup_append.mpr ⟨h.nodup, by simp, fun j hj k hk => ?_⟩
    rw [List.mem_singleton.mp hk]
    exact fun hji => hn (hji ▸ hj)
  case refine_2 =>
    rw [hl, hst, List.mem_append, h.sending j, List.mem_singleton]
    by_cases hij : i = j
    case pos => simp [hij]
    case neg => simp [hij, Ne.symm hij]
  case refine_3 =>
    rw [hst]
    split
    case isTrue => nofun
    case isFalse hij =>
      rw [hqueue, List.mem_append, List.mem_singleton] at hj
      exact h.sent j (hj.resolve_right (Ne.symm hij))
  case refine_4 =>
    rw [hst] at hj
    split at hj
    case isTrue => cases hj
    case isFalse =>
      rw [hq, hp]
      exact h.queued j hj

theorem enqueue {rest : List CallId} (hc' : c'.standing = some .queued) (hl : s.line = i :: rest)
    (hl' : t.line = rest) (hq : t.ahead = s.ahead ++ [i]) (hp : t.phase = s.phase) : Queued t := by
  have hst : ∀ j, t.standing j = if i = j then some .queued else s.standing j :=
    fun j => by rw [standing, about_of_set hi ht, hc']; rfl
  have hqueue : t.queue = s.queue := by rw [queue, queue, hq, hl, hl', List.append_assoc]; rfl
  have hline : (i :: rest).Nodup := hl ▸ (List.nodup_append.mp h.nodup).2.1
  refine ⟨hqueue ▸ h.nodup, fun j => ?_, fun j hj => ?_, fun j hj => ?_⟩
  case refine_1 =>
    have hs := h.sending j
    rw [hl, List.mem_cons] at hs
    rw [hl', hst]
    by_cases hij : i = j
    case pos => simpa [hij] using hij ▸ (List.nodup_cons.mp hline).1
    case neg => rw [if_neg hij, ← hs, or_iff_right (Ne.symm hij)]
  case refine_2 =>
    rw [hst]
    split
    case isTrue => nofun
    case isFalse => exact h.sent j (hqueue ▸ hj)
  case refine_3 =>
    rw [hst] at hj
    rw [hq, hp]
    split at hj
    case isTrue hij => exact .inl (by simp [hij])
    case isFalse => exact (h.queued j hj).imp_left (List.mem_append_left _)

end

theorem request (hc : s.calls[i]? = some (.request r stage)) (hs : RequestStep p s i r stage ce t) :
    Queued t := by
  have hst := standing_of_call hc
  cases hs
  case send => exact h.send hc rfl rfl rfl rfl rfl rfl
  case enqueue hq hl _ => exact h.enqueue hc rfl rfl hl rfl (by simp [ahead, hq, setStage]) rfl
  case leaveLine | drop => exact h.past hc rfl rfl (.refl _) (fun _ hj _ => hj) rfl id
  all_goals
    have hl := (h.erase_line (i := i) (by simp [hst])).symm
    exact h.past hc rfl rfl (.refl _) (fun _ hj _ => hj) hl id

theorem answered {purpose : Purpose} {c : Command} {deadline : Instant}
    {result : Except Failure Unit} (hp : s.phase = .commanding purpose c deadline) :
    Queued (s.answered p result purpose c).1 := by
  have hq : (s.afterCommand p result purpose).ahead = s.ahead ∧
      (s.afterCommand p result purpose).line = s.line := by
    unfold afterCommand
    split <;> try simp [ahead, hp]
    unfold reply
    split <;> simp [setStage]
  have hst : (s.afterCommand p result purpose).standing = s.standing := by
    rcases s.afterCommand_calls with hc | ⟨i, r, hi, hc⟩
    case inl => exact about_of_same hc
    case inr => exact about_of_set_same hi hc rfl
  exact h.same hq.1 hq.2 hst (by simp [hp, Phase.hasEnded])

theorem loop (hs : LoopStep p s o) : Queued o.1 := by
  cases hs
  case receive hp hi _ =>
    exact h.same (by simp [ahead, hp, hi]) rfl rfl (by simp [hp, Phase.hasEnded])
  case accept i wake _ r _ hp hc =>
    have ha : s.ahead = i :: s.slot.toList := by simp [ahead, hp]
    have hl := (h.erase_line (i := i) (by simp [standing_of_call hc])).symm
    have ht : ((s.setStage i r .accepted).carryOut p i wake r).1.calls =
        s.calls.set i (.request r .accepted) := carryOut_calls
    refine h.past hc ht rfl ?_ ?_ ?_ (by simp [hp, Phase.hasEnded])
    case refine_1 => rw [ha]; cases r <;> simp [ahead, carryOut, command, setStage]
    case refine_2 =>
      intro j hj hij
      rw [ha, List.mem_cons, or_iff_right hij] at hj
      cases r <;> simpa [ahead, carryOut, command, setStage] using hj
    case refine_3 => rw [← hl]; cases r <;> rfl
  case withdraw i _ _ r stage hp hc hn =>
    have ha : s.ahead = i :: s.slot.toList := by simp [ahead, hp]
    have hst := standing_of_call hc
    have hi : i ∈ s.ahead := by simp [ha]
    -- It was sent, and is neither in line nor in the queue.
    have hpast : stage.standing = some .past := by
      have hns := h.ahead_not_sending hi
      have hsent := h.sent i (List.mem_append_left _ hi)
      cases stage <;> simp_all
    have hl := (h.erase_line (h.ahead_not_sending hi)).symm
    obtain ⟨_, hget⟩ := List.getElem?_eq_some_iff.mp hc
    have ht : s.calls = s.calls.set i (.request r stage) := by rw [← hget, List.set_getElem_self]
    refine h.past hc ht hpast ?_ ?_ hl (by simp [hp, Phase.hasEnded])
    case refine_1 => rw [ha]; simp [ahead]
    case refine_2 =>
      intro j hj hij
      rw [ha, List.mem_cons, or_iff_right hij] at hj
      simpa [ahead] using hj
  case finish hp =>
    have hsub : List.Sublist s.line s.queue := List.sublist_append_right _ _
    exact ⟨hsub.nodup h.nodup, h.sending, fun i hi => h.sent i (hsub.subset hi), fun _ _ => .inr rfl⟩
  case evaluate hp =>
    refine h.same ?_ ?_ (about_of_same evaluate_calls) (by simp [hp, Phase.hasEnded])
    all_goals
      rw [evaluate_eq]
      split <;> simp [ahead, hp]
  case answer hp | timeOut hp _ => exact h.answered hp
  all_goals
    refine h.same ?_ rfl rfl ?_
    all_goals simp [*, ahead, Phase.hasEnded, command]

end Queued

theorem line_of_stopStep {stage : StopStage} (h : s.stopStep i stage = some t) :
    t.line = s.line ∧ t.slot = s.slot := by
  cases stage <;> simp only [stopStep, Option.ite_none_right_eq_some, reduceCtorEq] at h
  case joining | awaitingExit => obtain ⟨-, h⟩ := h; cases h; exact ⟨rfl, rfl⟩
  all_goals cases h; exact ⟨rfl, rfl⟩

theorem Queued.step (h : Queued s) (hso : Sound s) (hs : Step p s o) : Queued o.1 := by
  cases hs
  case pass | release => exact h.same rfl rfl rfl id
  case invoke what => exact h.same rfl rfl (about_of_append rfl (by cases what <;> rfl)) id
  case request hc hs => exact h.request hc (.of_requestStep hs)
  case stop hc hs =>
    obtain ⟨_, ht⟩ := calls_of_stopStep hs
    obtain ⟨hl, hq⟩ := line_of_stopStep hs
    have hp := (sparesLoop_of_stopStep hs).phase
    exact h.same (by rw [ahead, ahead, hp, hq]) hl (about_of_set_same hc ht rfl) (hp ▸ id)
  case loop hs => exact h.loop hs
  case spawn hc =>
    have hp := hso.claimed _ hc
    exact h.same (by simp [ahead, hp]) rfl (about_of_set_same hc rfl rfl)
      (by simp [hp, Phase.hasEnded])
  case turnAway hc _ | check hc _ | claim hc _ | claimLate hc _ | started hc | dropStop hc =>
    exact h.same rfl rfl (about_of_set_same hc rfl rfl) id

theorem Run.queued {seen : History} {schedule : Schedule} {m : Moment}
    (run : Run p (.initial schedule m) seen s) : Queued s := by
  induction run
  case refl => exact .initial
  case step run h ih => exact ih.step run.sound (Step.of_step h)

end EntryDoor.Scheduler
