import EntryDoor.Proofs.Scheduler.Prompt.Rest

namespace EntryDoor.Scheduler

open State

variable {w : World} {p : Policy} {s t : State} {o : Outcome} {e : Event} {i j : CallId}
  {r : Request} {stage : RequestStage} {ce : CallEvent} {c c' : Call} {due : Instant}

-- What makes up for a loop that waits with its timer due, as it does right after its start: the request that it finds
-- is one that still counts, if there are any, and the owner is still there. What it has in hand was taken up before a
-- stop.
structure Ready (w : World) (s : State) : Prop where
  taken : s.phase.IsAccepting → s.stopping = false
  first : ∀ wake, s.phase.bare s.moment.instant = .waiting wake →
    w.ring wake ≤ s.moment.instant → s.pending ≠ [] → ∃ i ∈ s.ahead, s.waiting? i ≠ none
  owned : ∀ wake, s.phase.bare s.moment.instant = .waiting wake →
    w.ring wake ≤ s.moment.instant → s.stopping = false → s.released = false

namespace Ready

theorem initial {schedule : Schedule} {m : Moment} : Ready w (.initial schedule m) :=
  ⟨False.elim, nofun, nofun⟩

-- A loop that does not wait, or is not to wake up now.
theorem of_not_due (hp : ∀ wake, s.phase.bare s.moment.instant = .waiting wake →
    s.moment.instant < w.ring wake) (ha : s.phase.IsAccepting → s.stopping = false) : Ready w s :=
  ⟨ha, fun wake h hd => absurd hd (Nat.not_le_of_lt (hp wake h)),
    fun wake h hd => absurd hd (Nat.not_le_of_lt (hp wake h))⟩

theorem of_rests (h : s.LoopRests w due) (hp : t.phase = s.phase) (hd : t.moment.instant < due) :
    Ready w t := by
  unfold LoopRests at h
  rw [← hp] at h
  split at h
  case h_2 hp =>
    obtain ⟨-, -, -, hw⟩ := h
    refine of_not_due (fun wake hb => ?_) (by simp [hp])
    rw [hp] at hb
    cases hb
    exact Nat.lt_of_lt_of_le hd hw
  case h_5 => exact h.elim
  case h_1 hq | h_3 hq | h_4 hq => exact of_not_due (by simp [hq, Phase.bare]) (by simp [hq])

theorem of_stopping (hs : s.stopping = true) (ha : ¬s.phase.IsAccepting) : Ready w s :=
  ⟨fun h => absurd h ha, fun _ _ _ hn => absurd (by simp [pending, deaf, hs]) hn,
    fun _ _ _ hn => by simp [hs] at hn⟩

-- A step that is nothing to the loop.
theorem stay (h : Ready w s) (hg : t.gist = s.gist) (ha : t.phase.IsAccepting → t.stopping = false)
    (hq : s.deaf = false → ∀ i ∈ s.ahead, s.waiting? i ≠ none →
      ∃ j ∈ t.ahead, t.waiting? j ≠ none) : Ready w t := by
  have hphase : t.phase.bare t.moment.instant = s.phase.bare s.moment.instant := by
    rw [← gist_phase, hg, gist_phase]
  have hm : t.moment = s.moment := by rw [← gist_moment, hg, gist_moment]
  have hs : t.stopping = s.stopping := by rw [← gist_stopping, hg, gist_stopping]
  have hr : t.released = s.released := by rw [← gist_released, hg, gist_released]
  have hp : t.pending = s.pending := by rw [← gist_pending, hg, gist_pending]
  refine ⟨ha, fun wake hw hd hn => ?_, fun wake hw hd hn => ?_⟩
  case refine_1 =>
    rw [hphase] at hw
    rw [hm] at hd
    obtain ⟨i, hi, hx⟩ := h.first wake hw hd (hp ▸ hn)
    refine hq (Bool.eq_false_iff.mpr fun hdeaf => hn ?_) i hi hx
    rw [hp, pending, if_pos hdeaf]
  case refine_2 =>
    rw [hphase] at hw
    rw [hm] at hd
    rw [hr]
    exact h.owned wake hw hd (hs ▸ hn)

end Ready

-- An event is seen in the rest of the scheduler by what it brings and by what it shows of the lock.
structure Follows (w : World) (p : Policy) (s : State) (e : Event) (o : Outcome) : Prop where
  run : Gist.Run w p s.gist ((s.stimulus? e).toList.map (s.moment.instant, ·))
    (History.moves (o.2.map (s.moment, ·))) o.1.gist
  ready : Ready w o.1

namespace Follows

theorem stay {now : List Occurrence} (hs : s.stimulus? e = none) (hg : t.gist = s.gist)
    (hm : History.moves (now.map (s.moment, ·)) = []) (hr : Ready w t) :
    Follows w p s e (t, now) := by
  refine ⟨?_, hr⟩
  rw [hs, hm, hg]
  exact .refl

theorem next {seen now : List Occurrence} (hs : s.stimulus? e = none)
    (hn : s.gist.next w p = some (t.gist, seen))
    (hm : History.moves (now.map (s.moment, ·)) = History.moves (seen.map (s.moment, ·)))
    (hr : Ready w t) : Follows w p s e (t, now) := by
  refine ⟨?_, hr⟩
  have hrun := Gist.Run.next hn .refl
  rw [List.append_nil, gist_moment, ← hm] at hrun
  rw [hs]
  exact hrun

theorem take {x : Stimulus} (hs : s.stimulus? e = some x) (hn : s.gist.next w p = none)
    (hg : t.gist = s.gist.take p x) (hr : Ready w t) : Follows w p s e (t, []) := by
  refine ⟨?_, hr⟩
  rw [hs, hg]
  exact .take hn .refl

-- A step that is nothing to the loop, whatever it does for buzzes.
theorem unseen {now : List Occurrence} (hr : Ready w s) (he : s.stimulus? e = none)
    (hm : History.moves (now.map (s.moment, ·)) = []) (hb : t.bare = s.bare)
    (hacc : t.phase.IsAccepting → s.stopping = false)
    (ha : s.deaf = false → ∀ j ∈ s.ahead, s.waiting? j ≠ none → j ∈ t.ahead)
    (hw : s.deaf = false → t.waiting? = s.waiting?)
    (hq : s.deaf = false → t.queue.filterMap s.waiting? = s.queue.filterMap s.waiting?) :
    Follows w p s e (t, now) := by
  have hg : t.gist = s.gist := gist_congr hb fun hd => by rw [hw hd, hq hd]
  have hs : t.bare.stopping = s.bare.stopping := by rw [hb]
  refine .stay he hg hm (hr.stay hg (fun h => hs.trans (hacc h)) fun hd i hi hx => ?_)
  exact ⟨i, ha hd i hi hx, by rwa [hw hd]⟩

-- A call that goes on, and leaves the queue as it is.
theorem call (hr : Ready w s) (he : s.stimulus? e = none) (hb : t.bare = s.bare)
    (hp : t.phase = s.phase) (ha : ∀ j ∈ s.ahead, j ∈ t.ahead)
    (hw : s.deaf = false → t.waiting? = s.waiting?)
    (hq : s.deaf = false → t.queue.filterMap s.waiting? = s.queue.filterMap s.waiting?) :
    Follows w p s e (t, []) :=
  .unseen hr he rfl hb (fun h => hr.taken (hp ▸ h)) (fun _ j hj _ => ha j hj) hw hq

end Follows

section

variable {α β : Type} [DecidableEq α] {l : List α} {a : α} {f g : α → Option β}

theorem filterMap_erase (h : f a = none) : (l.erase a).filterMap f = l.filterMap f := by
  by_cases ha : a ∈ l
  case pos =>
    obtain ⟨before, after, -, hl, he⟩ := List.exists_erase_eq ha
    rw [he, hl]
    simp [h]
  case neg => rw [List.erase_of_not_mem ha]

omit [DecidableEq α] in
-- What is said of the other elements.
theorem filterMap_of_not_mem (hg : ∀ b, a ≠ b → g b = f b) (hl : a ∉ l) :
    l.filterMap g = l.filterMap f := by
  induction l with
  | nil => rfl
  | cons b l ih =>
    rw [List.mem_cons, not_or] at hl
    rw [List.filterMap_cons, List.filterMap_cons, hg b hl.1, ih hl.2]

-- What is said of a list if nothing is said of one of its elements any more.
theorem exists_filterMap_without {x : β} (hl : l.Nodup) (ha : a ∈ l) (hx : f a = some x)
    (hg : ∀ b, g b = if a = b then none else f b) : ∃ before after,
      l.filterMap f = before ++ x :: after ∧ l.filterMap g = before ++ after ∧
        before = (l.takeWhile (· != a)).filterMap f ∧ ∀ y ∈ before, ∃ b, b ≠ a ∧ f b = some y := by
  obtain ⟨before, after, hn, rfl, -⟩ := List.exists_erase_eq ha
  have hn' : a ∉ after := by
    rw [List.nodup_append, List.nodup_cons] at hl
    exact hl.2.1.1
  have hsame : ∀ k : List α, a ∉ k → k.filterMap g = k.filterMap f :=
    fun k => filterMap_of_not_mem fun b hab => by rw [hg, if_neg hab]
  refine ⟨before.filterMap f, after.filterMap f, ?_, ?_, ?_, fun y hy => ?_⟩
  case refine_1 => simp [hx]
  case refine_2 => simp [hg a, hsame _ hn, hsame _ hn']
  case refine_3 =>
    have hall : ∀ b ∈ before, (b != a) = true := by
      intro b hb
      exact bne_iff_ne.mpr fun hba => hn (hba ▸ hb)
    simp [List.takeWhile_append_of_pos hall]
  case refine_4 =>
    obtain ⟨b, hb, hy⟩ := List.mem_filterMap.mp hy
    exact ⟨b, fun hba => hn (hba ▸ hb), hy⟩

end

theorem State.stimulus?_request (hc : s.calls[i]? = some (.request r stage)) (h : stage ≠ .created) :
    s.stimulus? (.call i .advance) = none := by
  cases stage <;> simp_all [stimulus?]

section

variable (hc : s.calls[i]? = some c)

include hc

theorem State.stimulus?_giveUp : s.stimulus? (.call i .giveUp) = none := by
  simp only [stimulus?, hc]

theorem State.stimulus?_drop : s.stimulus? (.call i .drop) =
    if s.deaf then none else c.waiting?.map fun _ => .drop (s.rank i) := by
  simp only [stimulus?, hc]

end

-- A caller sends its request. It comes last, and those before it are not touched.
theorem Follows.send (h : Queued s) (hk : s.StopsKnow) (hr : Ready w s)
    (hc : s.calls[i]? = some (.request r .created)) (ho : (Event.call i .advance).Orderly w p s)
    (hb : t.bare = s.bare) (hp : t.phase = s.phase)
    (hcalls : t.calls =
      s.calls.set i (.request r (.sending (s.moment.instant.after p.requestTimeout))))
    (hahead : t.ahead = s.ahead) (hline : t.line = s.line ++ [i]) :
    Follows w p s (.call i .advance) (t, []) := by
  have hst : s.standing i = none := about_of_call hc
  have hwi : s.waiting? i = none := about_of_call hc
  have hqueue : t.queue = s.queue ++ [i] := by
    rw [queue, queue, hahead, hline, List.append_assoc]
  by_cases hd : (s.deaf || r.isBuzz) = true
  case pos =>
    have hx : s.stimulus? (.call i .advance) = none := by
      simp only [stimulus?, hc]
      rw [if_pos hd]
    refine .call hr hx hb hp (fun _ hj => hahead ▸ hj) (fun hn => ?_) fun _ => ?_
    case refine_1 =>
      have hbuzz : r.isBuzz = true := by simpa [hn] using hd
      exact about_of_set_same hc hcalls (by simp [Call.waiting?, hbuzz])
    case refine_2 => simp [hqueue, hwi]
  case neg =>
    obtain ⟨hd, hbuzz⟩ : s.deaf = false ∧ r.isBuzz = false := by simpa using hd
    have hx : s.stimulus? (.call i .advance) = some (.request r) := by
      simp [stimulus?, hc, hd, hbuzz]
    obtain ⟨hrel, hquiet⟩ := ho (by rw [hx]; rfl)
    have hn := hquiet.next_eq_none (p := p) h hk (Nat.lt_succ_self _) fun j hj => by
      cases hj
      exact ⟨hst, hrel⟩
    have hw : ∀ j, t.waiting? j =
        if i = j then some (r, s.moment.instant.after p.requestTimeout) else s.waiting? j := by
      intro j
      rw [waiting?, about_of_set hc hcalls]
      simp [Call.waiting?, hbuzz, waiting?]
    have hq : t.queue.filterMap t.waiting? =
        s.pending ++ [(r, s.moment.instant.after p.requestTimeout)] := by
      rw [hqueue, List.filterMap_append, pending, hd, if_neg Bool.false_ne_true,
        filterMap_of_not_mem (a := i) (fun j hij => by rw [hw, if_neg hij]) fun hi => h.sent i hi hst]
      simp [hw]
    have hm : t.bare.moment = s.bare.moment := by rw [hb]
    exact .take hx hn (Gist.of_congr (hb.trans bare_bare.symm) fun _ => hq)
      (.of_rests hquiet.1 hp (hm ▸ Nat.lt_succ_self _))

-- The caller of `c` gives up or drops its call, and leaves the line if it is there.
structure Leaves (s t : State) (i : CallId) (c c' : Call) : Prop where
  call : s.calls[i]? = some c
  calls : t.calls = s.calls.set i c'
  gone : c'.waiting? = none
  bare : t.bare = s.bare
  phase : t.phase = s.phase
  ahead : t.ahead = s.ahead
  line : t.line = s.line.erase i

namespace Leaves

variable {x : Request × Instant} (hl : Leaves s t i c c')

include hl

theorem moment : t.moment = s.moment := by
  have h : t.bare.moment = s.bare.moment := by rw [hl.bare]
  exact h

theorem waiting : t.waiting? j = if i = j then none else s.waiting? j := by
  rw [waiting?, about_of_set hl.call hl.calls, hl.gone]
  rfl

theorem filterMap_queue : t.queue.filterMap t.waiting? = s.queue.filterMap t.waiting? := by
  rw [queue, queue, hl.ahead, hl.line, List.filterMap_append, List.filterMap_append,
    filterMap_erase (by rw [hl.waiting, if_pos rfl])]

-- The loop knows nothing of the request, or has no use for it.
theorem unnoticed (hr : Ready w s) (he : s.stimulus? e = none)
    (hn : s.deaf = false → s.waiting? i = none) : Follows w p s e (t, []) := by
  have hsame : s.deaf = false → t.waiting? = s.waiting? := fun hd =>
    about_of_set_same hl.call hl.calls
      (hl.gone.trans ((about_of_call hl.call).symm.trans (hn hd)).symm)
  refine .call hr he hl.bare hl.phase (fun _ hj => hl.ahead ▸ hj) hsame fun hd => ?_
  rw [← hsame hd]
  exact hl.filterMap_queue

-- The request was pending.
theorem exists_pending (h : Queued s) (hd : s.deaf = false) (hx : s.waiting? i = some x) :
    ∃ before after, s.pending = before ++ x :: after ∧
      t.gist = ⟨s.gist.state, before ++ after⟩ ∧ before.length = s.rank i ∧
        ∀ y ∈ before, ∃ j, j ≠ i ∧ s.waiting? j = some y := by
  have hi : i ∈ s.queue :=
    h.mem_queue (hasEnded_of_not_deaf hd) (standing_of_waiting (by simp [hx]))
  obtain ⟨before, after, hf, hg, hlen, hbefore⟩ :=
    exists_filterMap_without h.nodup hi hx fun _ => hl.waiting
  have hdt : t.deaf = false := by rw [← deaf_bare, hl.bare, deaf_bare, hd]
  refine ⟨before, after, ?_, ?_, by rw [hlen, rank], hbefore⟩
  case refine_1 => rw [pending, hd, if_neg Bool.false_ne_true, hf]
  case refine_2 =>
    rw [gist, hl.filterMap_queue, hg, Gist.of, hl.bare, hdt]
    rfl

theorem giveUp (h : Queued s) (hr : Ready w s) (ho : (Event.call i .giveUp).Orderly w p s) :
    Follows w p s (.call i .giveUp) (t, []) := by
  have he : s.stimulus? (.call i .giveUp) = none := stimulus?_giveUp hl.call
  by_cases hn : s.deaf = false → s.waiting? i = none
  case pos => exact hl.unnoticed hr he hn
  case neg =>
    obtain ⟨hd, hx⟩ := Classical.not_imp.mp hn
    obtain ⟨x, hx⟩ := Option.ne_none_iff_exists'.mp hx
    obtain ⟨hring, hstuck, hquiet⟩ := ho x hx hd
    obtain ⟨before, after, hpending, hg, -, hbefore⟩ := hl.exists_pending h hd hx
    -- Of all requests this is the one whose caller has waited long enough.
    have hnot : ∀ y ∈ before, ¬s.gist.expired w y := by
      intro y hy hdue
      obtain ⟨j, hj, hy⟩ := hbefore y hy
      have hle := hquiet.le_ring hy fun hi => hj (Option.some.inj hi).symm
      exact absurd (of_decide_eq_true hdue) (Nat.not_le_of_lt hle)
    have hexpired : s.gist.expired w x = true := decide_eq_true hring
    have hexpire : s.gist.expire w = some (t.gist, []) := by
      rw [hg, Gist.expire, gist_pending, hpending, if_pos (by simp [hexpired]),
        List.eraseP_append_right _ hnot, List.eraseP_cons_of_pos hexpired]
    refine .next he ?_ rfl (.of_rests hquiet.1 hl.phase (hl.moment ▸ Nat.lt_succ_self _))
    have hloop := hquiet.1
    unfold LoopRests at hloop
    split at hloop
    case h_1 hp => rw [Gist.next_of_dormant (gist_phase_of hp), hexpire]
    -- A loop that waits would have taken it up, or it could enter the queue.
    case h_2 hp =>
      obtain ⟨-, -, hslot, -⟩ := hloop
      have hpn := hquiet.pending_eq_nil h hp fun j hj hh => hstuck ⟨hslot, by rw [hh, hj]⟩
      simp [hpn] at hpending
    case h_3 due _ _ hp =>
      have hnd : ¬w.ring due ≤ s.moment.instant := Nat.not_le_of_lt hloop
      rw [Gist.next_of_settling (gist_phase_of hp), gist_now, if_neg hnd, hexpire]
    case h_4 hp => simp [deaf, hp, Phase.isLeaving] at hd
    case h_5 => exact hloop.elim

theorem drop (h : Queued s) (hk : s.StopsKnow) (hr : Ready w s)
    (ho : (Event.call i .drop).Orderly w p s) : Follows w p s (.call i .drop) (t, []) := by
  have hcw : s.waiting? i = c.waiting? := about_of_call hl.call
  by_cases hn : s.deaf = false → s.waiting? i = none
  case pos =>
    have he : s.stimulus? (.call i .drop) = none := by
      rw [stimulus?_drop hl.call]
      split
      case isTrue => rfl
      case isFalse hd => rw [← hcw, hn (Bool.eq_false_iff.mpr hd), Option.map_none]
    exact hl.unnoticed hr he hn
  case neg =>
    obtain ⟨hd, hx⟩ := Classical.not_imp.mp hn
    obtain ⟨x, hx⟩ := Option.ne_none_iff_exists'.mp hx
    have he : s.stimulus? (.call i .drop) = some (.drop (s.rank i)) := by
      rw [stimulus?_drop hl.call, hd, if_neg Bool.false_ne_true, ← hcw, hx, Option.map_some]
    have hquiet : s.AtRest w := ho (by rw [he]; rfl)
    obtain ⟨before, after, hpending, hg, hrank, -⟩ := hl.exists_pending h hd hx
    have htake : t.gist = s.gist.take p (.drop (s.rank i)) := by
      have hds : s.gist.state.deaf = false := deaf_bare.trans hd
      rw [hg, Gist.take, Gist.of, hds, gist_pending, hpending, ← hrank,
        List.eraseIdx_append_of_length_le (Nat.le_refl _), Nat.sub_self, List.eraseIdx_cons_zero,
        if_neg Bool.false_ne_true]
      exact congrArg (Gist.mk · _) bare_bare.symm
    exact .take he (hquiet.next_eq_none h hk (Nat.lt_succ_self _) nofun) htake
      (.of_rests hquiet.1 hl.phase (hl.moment ▸ Nat.lt_succ_self _))

end Leaves

theorem Follows.request (h : Queued s) (hk : s.StopsKnow) (hr : Ready w s)
    (hc : s.calls[i]? = some (.request r stage)) (ho : (Event.call i ce).Orderly w p s)
    (hs : RequestStep p s i r stage ce t) : Follows w p s (.call i ce) (t, []) := by
  cases hs
  case turnAway hst =>
    have hx : s.stimulus? (.call i .advance) = none := by simp [stimulus?, hc, deaf, hst]
    exact .call hr hx rfl rfl (fun _ hj => hj) (fun _ => about_of_set_same hc rfl rfl)
      fun _ => rfl
  case send => exact .send h hk hr hc ho rfl rfl rfl rfl rfl
  case enqueue hq hl _ =>
    have hx : s.stimulus? (.call i .advance) = none := stimulus?_request hc (by simp)
    refine .call hr hx rfl rfl (fun j hj => ?_) (fun _ => about_of_set_same hc rfl rfl) fun _ => ?_
    case refine_1 => simpa [ahead, hq, setStage] using .inl (by simpa [ahead, hq] using hj)
    case refine_2 => simp [queue, ahead, hq, hl, setStage]
  case finish =>
    exact .call hr (stimulus?_request hc (by simp)) rfl rfl (fun _ hj => hj)
      (fun _ => about_of_set_same hc rfl rfl) fun _ => rfl
  case finishBuzz =>
    exact .call hr (stimulus?_request hc (by simp)) rfl rfl (fun _ hj => hj)
      (fun _ => about_of_set_same hc rfl rfl) fun _ => rfl
  case leaveLine => exact Leaves.giveUp ⟨hc, rfl, rfl, rfl, rfl, rfl, rfl⟩ h hr ho
  case leaveQueue =>
    have hl := (h.erase_line (i := i) (by simp [standing_of_call hc])).symm
    exact Leaves.giveUp ⟨hc, rfl, rfl, rfl, rfl, rfl, hl⟩ h hr ho
  case drop => exact Leaves.drop ⟨hc, rfl, rfl, rfl, rfl, rfl, rfl⟩ h hk hr ho

theorem Follows.start {stage : StartStage} (h : Queued s) (hk : s.StopsKnow) (hso : Sound s)
    (hr : Ready w s) (hc : s.calls[i]? = some (.start stage))
    (ho : (Event.call i .advance).Orderly w p s) (hf : (Event.call i .advance).StartsClear s)
    (hs : s.startStep i stage = some t) : Follows w p s (.call i .advance) (t, []) := by
  cases stage <;> simp only [startStep, reduceCtorEq] at hs <;> cases hs
  case claimed =>
    have he : s.stimulus? (.call i .advance) = some .start := by simp [stimulus?, hc]
    have hp := hso.claimed i hc
    obtain ⟨hrel, hquiet⟩ := ho (by rw [he]; rfl)
    have hn := hquiet.next_eq_none (p := p) h hk (Nat.lt_succ_self _) fun j hj => by
      cases hj
      exact ⟨about_of_call hc, hrel⟩
    have hd : s.deaf = s.stopping := by simp [deaf, hp, Phase.isLeaving]
    have hw : State.waiting? { s with calls := s.calls.set i (.start .spawned), phase := .spawned } =
        s.waiting? := about_of_set_same hc rfl rfl
    have hq : State.queue { s with calls := s.calls.set i (.start .spawned), phase := .spawned } =
        s.queue := by simp [queue, ahead, hp]
    refine .take he hn (Gist.of_congr ?_ fun hs => ?_) ⟨False.elim, fun _ _ _ hpn => ?_, fun _ _ _ _ => hrel⟩
    case refine_1 => simp [State.bare, gist_registers, Phase.bare, settled, hp]
    case refine_2 =>
      have hs : s.stopping = false := by simpa [deaf, Phase.isLeaving] using hs
      rw [hw, hq, gist_pending, pending, hd, hs, if_neg Bool.false_ne_true]
    case refine_3 =>
      have hclear := hf (by rw [he])
      have hpend : s.pending ≠ [] := by
        simpa [pending, hw, hq, deaf, hp, Phase.isLeaving] using hpn
      have hslot := hclear.resolve_left (by simpa using hpend)
      obtain ⟨x, hx⟩ := Option.isSome_iff_exists.mp hslot
      obtain ⟨j, hj, hx⟩ := Option.bind_eq_some_iff.mp hx
      exact ⟨j, by simp [ahead, hj], by simp [hw, hx]⟩
  all_goals
    have he : s.stimulus? (.call i .advance) = none := by simp [stimulus?, hc]
    exact .call hr he rfl rfl (fun _ hj => hj) (fun _ => about_of_set_same hc rfl rfl) fun _ => rfl

theorem Follows.stop {stage : StopStage} (h : Queued s) (hk : s.StopsKnow) (hr : Ready w s)
    (hc : s.calls[i]? = some (.stop stage)) (ho : (Event.call i .advance).Orderly w p s)
    (hs : s.stopStep i stage = some t) : Follows w p s (.call i .advance) (t, []) := by
  cases stage <;>
    simp only [stopStep, Option.ite_none_right_eq_some, reduceCtorEq] at hs
  case created =>
    cases hs
    have he : s.stimulus? (.call i .advance) = some .stop := by simp [stimulus?, hc]
    obtain ⟨hrel, hquiet⟩ := ho (by rw [he]; rfl)
    have hn := hquiet.next_eq_none (p := p) h hk (Nat.lt_succ_self _) fun j hj => by
      cases hj
      exact ⟨about_of_call hc, hrel⟩
    have hacc : ¬s.phase.IsAccepting := by
      have hloop := hquiet.1
      unfold LoopRests at hloop
      intro hacc
      split at hloop <;> simp_all
    have hb : { s.bare with stopping := true } = { s.bare.bare with stopping := true } := by
      rw [bare_bare]
    exact .take he hn (Gist.of_congr hb fun hd => by simp [deaf] at hd) (.of_stopping rfl hacc)
  all_goals
    have he : s.stimulus? (.call i .advance) = none := by simp [stimulus?, hc]
  case joining | awaitingExit =>
    obtain ⟨-, hs⟩ := hs
    cases hs
    exact .call hr he rfl rfl (fun _ hj => hj) (fun _ => about_of_set_same hc rfl rfl) fun _ => rfl
  case flagged | unjoined =>
    cases hs
    exact .call hr he rfl rfl (fun _ hj => hj) (fun _ => about_of_set_same hc rfl rfl) fun _ => rfl

theorem Follows.ofCall (h : Queued s) (hk : s.StopsKnow) (hso : Sound s) (hr : Ready w s)
    (ho : (Event.call i ce).Orderly w p s) (hf : (Event.call i ce).StartsClear s)
    (hs : s.callStep p i ce = some t) : Follows w p s (.call i ce) (t, []) := by
  obtain ⟨c, hc, hs⟩ := Option.bind_eq_some_iff.mp hs
  split at hs
  case h_1 => exact .request h hk hr hc ho (.of_requestStep hs)
  case h_2 => exact .start h hk hso hr hc ho hf hs
  case h_3 => exact .stop h hk hr hc ho hs
  case h_4 =>
    split at hs <;> cases hs
    have he : s.stimulus? (.call i .drop) = none := by
      rw [stimulus?_drop hc]
      split <;> rfl
    exact .call hr he rfl rfl (fun _ hj => hj) (fun _ => about_of_set_same hc rfl rfl) fun _ => rfl
  case h_5 => cases hs

end EntryDoor.Scheduler
