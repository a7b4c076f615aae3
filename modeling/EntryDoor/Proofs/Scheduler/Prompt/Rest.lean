import EntryDoor.Proofs.Scheduler.Prompt.Gist

namespace EntryDoor.Scheduler

open State

variable {w : World} {p : Policy} {s t : State} {i : CallId} {c : Call} {but : Option CallId}
  {due : Instant}

theorem Call.standing_of_waiting (h : c.waiting? ≠ none) :
    c.standing = some .sending ∨ c.standing = some .queued := by
  cases c with
  | request r stage => cases stage <;> simp_all [Call.waiting?]
  | start => exact absurd rfl h
  | stop => exact absurd rfl h

theorem Call.waiting?_of_over (h : c.isOver) : c.waiting? = none := by
  cases c with
  | request r stage => cases stage <;> simp_all [Call.isOver, RequestStage.isOver, Call.waiting?]
  | start => rfl
  | stop => rfl

theorem State.standing_of_waiting (h : s.waiting? i ≠ none) :
    s.standing i = some .sending ∨ s.standing i = some .queued := by
  obtain ⟨x, hx⟩ := Option.ne_none_iff_exists'.mp h
  obtain ⟨c, hc, hx⟩ := Option.bind_eq_some_iff.mp hx
  rw [standing, about_of_call hc]
  exact Call.standing_of_waiting (by simp [hx])

theorem Queued.mem_queue (h : Queued s) (he : s.phase.hasEnded = false)
    (hs : s.standing i = some .sending ∨ s.standing i = some .queued) : i ∈ s.queue := by
  rcases hs with hs | hs
  case inl => exact List.mem_append_right _ ((h.sending i).mpr hs)
  case inr => exact List.mem_append_left _ ((h.queued i hs).resolve_right (by simp [he]))

theorem State.hasEnded_of_not_deaf (h : s.deaf = false) : s.phase.hasEnded = false := by
  cases hp : s.phase <;> simp_all [deaf, Phase.hasEnded, Phase.isLeaving]

theorem State.gist_congr (hb : t.bare = s.bare)
    (hq : s.deaf = false → t.queue.filterMap t.waiting? = s.queue.filterMap s.waiting?) :
    t.gist = s.gist :=
  Gist.of_congr hb hq

section

variable (hq : s.Quiet w due but)

include hq

theorem State.Quiet.rests (hi : s.calls[i]? = some c) (hb : but ≠ some i) : c.Rests w s due i :=
  hq.2 i (List.getElem?_eq_some_iff.mp hi).1 c hi hb

-- Nobody stands in line before an empty queue.
theorem State.Quiet.line_eq_nil (h : Queued s) (hs : s.slot = none)
    (hb : ∀ i, but = some i → s.line.head? ≠ some i) : s.line = [] := by
  cases hl : s.line with
  | nil => rfl
  | cons i rest =>
    have hi : i ∈ s.line := by simp [hl]
    obtain ⟨r, d, hc⟩ := standing_eq_sending_iff.mp ((h.sending i).mp hi)
    have hr := hq.rests hc fun hi => hb i hi (by simp [hl])
    exact absurd ⟨hs, by simp [hl]⟩ hr.1

theorem State.Quiet.le_ring {x : Request × Instant} (hi : s.waiting? i = some x) (hb : but ≠ some i) :
    due ≤ w.ring x.2 := by
  obtain ⟨c, hc, hx⟩ := Option.bind_eq_some_iff.mp hi
  have hr := hq.rests hc hb
  cases c with
  | request r stage =>
    cases stage <;> simp only [Call.waiting?, Option.ite_none_left_eq_some, reduceCtorEq] at hx
    case sending => obtain ⟨-, hx⟩ := hx; cases hx; exact hr.2
    case queued => obtain ⟨-, hx⟩ := hx; cases hx; exact hr
  | start => cases hx
  | stop => cases hx

end

-- The owner is still there, or the loop would be about to end.
theorem State.Quiet.released_eq_false (h : Queued s) (hk : s.StopsKnow) (hq : s.Quiet w due none)
    {wake : Instant} (hp : s.phase = .waiting wake) : s.released = false := by
  have hloop := hq.1
  simp only [LoopRests, hp] at hloop
  obtain ⟨hs, ha, hslot, -⟩ := hloop
  have hl := hq.line_eq_nil h hslot nofun
  refine Bool.eq_false_iff.mpr fun hr => ha ⟨hr, fun c hc => ?_⟩
  obtain ⟨i, hi⟩ := List.getElem?_of_mem hc
  have hrests := hq.rests hi nofun
  cases c with
  | request r stage =>
    -- Whoever still waits would be in line or in the queue.
    have hn : i ∉ s.queue := by simp [queue, ahead, hp, hslot, hl]
    have hst := fun hs => hn (h.mem_queue (by simp [hp, Phase.hasEnded]) hs)
    rw [standing_of_call hi] at hst
    cases stage <;> simp_all [Call.Rests, Call.isOver]
  | start stage => exact hrests
  | stop stage =>
    have hf := hk.flagged i stage hi
    cases stage <;> simp_all [Call.Rests, Call.isOver]

theorem State.Quiet.pending_eq_nil (h : Queued s) (hq : s.Quiet w due but) {wake : Instant}
    (hp : s.phase = .waiting wake) (hb : ∀ i, but = some i → s.line.head? ≠ some i) :
    s.pending = [] := by
  have hloop := hq.1
  simp only [LoopRests, hp] at hloop
  obtain ⟨hs, ha, hslot, -⟩ := hloop
  have hl := hq.line_eq_nil h hslot hb
  simp [pending, queue, ahead, hp, hslot, hl]

theorem State.Quiet.expire_eq_none (hq : s.Quiet w due but) (hd : s.moment.instant < due)
    (hb : ∀ i, but = some i → s.waiting? i = none) : s.gist.expire w = none := by
  have hn : ∀ x ∈ s.pending, ¬s.gist.expired w x := by
    intro x hx
    unfold pending at hx
    split at hx
    case isTrue => cases hx
    case isFalse =>
      obtain ⟨i, -, hi⟩ := List.mem_filterMap.mp hx
      have hle := hq.le_ring hi fun hbi => by simp [hb i hbi] at hi
      exact fun hx => Nat.not_le_of_lt (Nat.lt_of_lt_of_le hd hle) (of_decide_eq_true hx)
  rw [Gist.expire, gist_pending, if_neg (by simpa using hn)]

-- What is left of a scheduler that is at rest is at rest.
theorem State.Quiet.next_eq_none (h : Queued s) (hk : s.StopsKnow) (hq : s.Quiet w due but)
    (hd : s.moment.instant < due)
    (hb : ∀ i, but = some i → s.standing i = none ∧ s.released = false) :
    s.gist.next w p = none := by
  have hw : ∀ i, but = some i → s.waiting? i = none := by
    intro i hi
    refine Classical.not_not.mp fun hw => ?_
    rcases standing_of_waiting hw with hs | hs <;> simp [(hb i hi).1] at hs
  have he := hq.expire_eq_none hd hw
  have hl : ∀ i, but = some i → s.line.head? ≠ some i := by
    intro i hi hh
    have := (h.sending i).mp (List.mem_of_mem_head? hh)
    simp [(hb i hi).1] at this
  have hloop := hq.1
  unfold LoopRests at hloop
  split at hloop
  case h_1 hp => rw [Gist.next_of_dormant (gist_phase_of hp), he]
  case h_2 wake hp =>
    obtain ⟨hs, -, -, hwake⟩ := hloop
    have hnd : ¬w.ring wake ≤ s.moment.instant :=
      Nat.not_le_of_lt (Nat.lt_of_lt_of_le hd hwake)
    have hr : s.released = false := by
      cases but with
      | none => exact hq.released_eq_false h hk hp
      | some i => exact (hb i rfl).2
    rw [Gist.next_of_waiting (gist_phase_of hp)]
    simp [Gist.look, hs, hq.pending_eq_nil h hp hl, hr, hnd]
  case h_3 d _ _ hp =>
    have hnd : ¬w.ring d ≤ s.moment.instant := Nat.not_le_of_lt (Nat.lt_of_lt_of_le hd hloop)
    rw [Gist.next_of_settling (gist_phase_of hp), gist_now, if_neg hnd, he]
  case h_4 hp => exact Gist.next_of_ended (gist_phase_of hp)
  case h_5 => exact hloop.elim

-- A state at another moment.
def State.later (m : Moment) (s : State) : State :=
  { s with moment := m }

theorem State.Quiet.tick (hq : s.Quiet w due but) :
    s.gist.tick w = (s.later (w.moment (s.moment.instant + 1))).gist := by
  have hp : ∀ t, s.phase.bare t = s.phase := by
    intro t
    have hloop := hq.1
    unfold LoopRests at hloop
    split at hloop
    case h_5 => exact hloop.elim
    all_goals simp [*, Phase.bare]
  have hb : ∀ m, (s.later m).bare = { s.bare with moment := m } := fun m => by
    simp [State.bare, later, settled, hp]
  unfold Gist.tick gist Gist.of
  rw [hb]
  rfl

-- By induction on the nanoseconds that pass.
theorem State.Quiet.pass {n : Nat} (h : Queued s) (hk : s.StopsKnow)
    (hq : s.Quiet w (s.moment.instant + (n + 1)) none) :
    Gist.Run w p s.gist [] [] (s.later (w.moment (s.moment.instant + (n + 1)))).gist := by
  induction n generalizing s with
  | zero =>
    have hn := hq.next_eq_none (p := p) h hk (Nat.lt_succ_self _) nofun
    exact .tick hn (hq.tick ▸ .refl)
  | succ n ih =>
    have hn := hq.next_eq_none (p := p) h hk (Nat.lt_add_of_pos_right (Nat.succ_pos _)) nofun
    refine .tick hn ?_
    rw [hq.tick]
    have h' : Queued (s.later (w.moment (s.moment.instant + 1))) := h.same rfl rfl rfl id
    have hk' : (s.later (w.moment (s.moment.instant + 1))).StopsKnow :=
      ⟨hk.flagged, fun i hi => ⟨(hk.finished i hi).1, (hk.finished i hi).2⟩⟩
    have he : s.moment.instant + (n + 1 + 1) = s.moment.instant + 1 + (n + 1) :=
      (Nat.add_right_comm _ 1 (n + 1)).symm
    rw [he] at hq ⊢
    exact ih h' hk' hq

end EntryDoor.Scheduler
