import EntryDoor.Proofs.Scheduler.Prompt.Runs

namespace EntryDoor.Scheduler

open State

variable {w : World} {p : Policy} {s t : State} {inputs : List (Instant × Stimulus)}
  {moves : List (Moment × Command)} {seen : List Occurrence}

namespace Phase

-- Where the loop stands, if it is left open whether it has a buzz in hand and whether it has looked for a stop.
def bare (now : Instant) : Phase → Phase
  | spawned => waiting now
  | polling wake => waiting wake
  | accepting _ wake _ => waiting wake
  | commanding (.buzz _ wake) .. => waiting wake
  | leaving => ended
  | announced => ended
  | phase => phase

variable {phase : Phase} {now : Instant}

@[simp] theorem isLeaving_bare : (phase.bare now).isLeaving = phase.isLeaving := by
  unfold bare
  split <;> rfl

@[simp] theorem bare_bare {now' : Instant} : (phase.bare now).bare now' = phase.bare now := by
  cases phase with
  | commanding purpose => cases purpose <;> rfl
  | _ => rfl

theorem not_isAccepting_bare : ¬(phase.bare now).IsAccepting := by
  cases phase with
  | commanding purpose => cases purpose <;> simp [bare]
  | _ => simp [bare]

end Phase

namespace State

def bare (s : State) : State where
  moment := s.moment
  registers := s.settled
  phase := s.phase.bare s.moment.instant
  stopping := s.stopping
  released := s.released

@[simp] theorem deaf_bare : s.bare.deaf = s.deaf := by
  simp [deaf, bare]

@[simp] theorem bare_bare : s.bare.bare = s.bare := by
  have hr : s.bare.settled = s.bare.registers := settled_of_not_accepting Phase.not_isAccepting_bare
  unfold bare at hr ⊢
  simp only [hr, Phase.bare_bare]

end State

-- A scheduler without its callers and without buzzes: where its loop stands, and the requests that it is still
-- to accept.
structure Gist where
  state : State
  pending : List (Request × Instant)

namespace Gist

-- A loop that is to stop or to end has no use for what is pending.
def of (s : State) (pending : List (Request × Instant)) : Gist where
  state := s.bare
  pending := if s.deaf then [] else pending

theorem of_congr {pending pending' : List (Request × Instant)} (h : s.bare = t.bare)
    (hp : t.deaf = false → pending = pending') : of s pending = of t pending' := by
  have hd : s.deaf = t.deaf := by rw [← deaf_bare, h, deaf_bare]
  unfold of
  rw [h, hd]
  split
  case isTrue => rfl
  case isFalse hn => rw [hp (by simpa using hn)]

variable (w p) (g : Gist)

def now : Instant :=
  g.state.moment.instant

-- Whether a caller has waited long enough.
def expired (x : Request × Instant) : Bool :=
  w.ring x.2 ≤ g.now

-- The first request whose caller has waited long enough is given up.
def expire : Option (Gist × List Occurrence) :=
  if g.pending.any (g.expired w) then some (⟨g.state, g.pending.eraseP (g.expired w)⟩, [])
  else none

-- What is left of an outcome of the loop.
def after (pending : List (Request × Instant)) (o : Outcome) : Gist × List Occurrence :=
  (of o.1 pending, o.2)

-- A loop that waits looks for a stop first, for a request next and for its timer last.
def look (wake : Instant) : Option (Gist × List Occurrence) :=
  let s := g.state
  if s.stopping then some (after [] ({ s with phase := .leaving }, []))
  else
    match g.pending with
    | (r, _) :: rest =>
      some (after rest ({ s with registers := s.registers.install r }.carryOut p 0 wake r))
    | [] =>
      if s.released then some (after [] ({ s with phase := .leaving }, []))
      else if w.ring wake ≤ g.now then some (after [] ({ s with phase := .evaluating }, []))
      else none

-- What it does at this instant, if there is anything left to do.
def next : Option (Gist × List Occurrence) :=
  let s := g.state
  match s.phase with
  | .waiting wake => g.look w p wake
  | .commanding purpose c _ =>
    some (after g.pending (s.answered p ((w.door s.moment c).mapError .hardware) purpose c))
  | .settling due _ _ =>
    if w.ring due ≤ g.now then (s.advance p).map (after g.pending) else g.expire w
  | .dormant => g.expire w
  | .ended => none
  | _ => (s.advance p).map (after g.pending)

-- The next nanosecond.
def tick : Gist where
  state := { g.state with moment := w.moment (g.now + 1) }
  pending := g.pending

def take : Stimulus → Gist
  | .request r => of g.state (g.pending ++ [(r, g.now.after p.requestTimeout)])
  | .start => of { g.state with phase := .waiting g.now } g.pending
  | .stop => of { g.state with stopping := true } g.pending
  | .drop rank => of g.state (g.pending.eraseIdx rank)
  | .release => of { g.state with released := true } g.pending

-- Time passes, and what comes from outside comes, when there is nothing left to do.
inductive Run (w : World) (p : Policy) :
    Gist → List (Instant × Stimulus) → List (Moment × Command) → Gist → Prop
  | refl {g : Gist} : Run w p g [] [] g
  | next {g g' g'' : Gist} {inputs : List (Instant × Stimulus)} {seen : List Occurrence}
      {moves : List (Moment × Command)} (h : g.next w p = some (g', seen))
      (r : Run w p g' inputs moves g'') :
      Run w p g inputs (History.moves (seen.map (g.state.moment, ·)) ++ moves) g''
  | tick {g g' : Gist} {inputs : List (Instant × Stimulus)} {moves : List (Moment × Command)}
      (h : g.next w p = none) (r : Run w p (g.tick w) inputs moves g') : Run w p g inputs moves g'
  | take {g g' : Gist} {x : Stimulus} {inputs : List (Instant × Stimulus)}
      {moves : List (Moment × Command)} (h : g.next w p = none)
      (r : Run w p (g.take p x) inputs moves g') : Run w p g ((g.now, x) :: inputs) moves g'

variable {w p g} {g' g'' : Gist}

section

variable {wake due : Instant}

theorem look_of_stopping (hs : g.state.stopping = true) :
    g.look w p wake = some (after [] ({ g.state with phase := .leaving }, [])) := by
  simp [look, hs]

theorem look_of_pending {r : Request} {d : Instant} {rest : List (Request × Instant)}
    (hs : g.state.stopping = false) (hp : g.pending = (r, d) :: rest) :
    g.look w p wake = some (after rest
      ({ g.state with registers := g.state.registers.install r }.carryOut p 0 wake r)) := by
  simp [look, hs, hp]

theorem look_of_released (hs : g.state.stopping = false) (hp : g.pending = [])
    (hr : g.state.released = true) :
    g.look w p wake = some (after [] ({ g.state with phase := .leaving }, [])) := by
  simp [look, hs, hp, hr]

theorem look_of_due (hs : g.state.stopping = false) (hp : g.pending = [])
    (hr : g.state.released = false) (hd : w.ring wake ≤ g.now) :
    g.look w p wake = some (after [] ({ g.state with phase := .evaluating }, [])) := by
  simp [look, hs, hp, hr, hd]

theorem next_of_dormant (h : g.state.phase = .dormant) : g.next w p = g.expire w := by
  simp [next, h]

theorem next_of_waiting (h : g.state.phase = .waiting wake) : g.next w p = g.look w p wake := by
  simp [next, h]

theorem next_of_commanding {purpose : Purpose} {c : Command} {deadline : Instant}
    (h : g.state.phase = .commanding purpose c deadline) :
    g.next w p = some (after g.pending
      (g.state.answered p ((w.door g.state.moment c).mapError .hardware) purpose c)) := by
  simp [next, h]

theorem next_of_settling {rest : List Command} (h : g.state.phase = .settling due rest wake) :
    g.next w p = if w.ring due ≤ g.now then (g.state.advance p).map (after g.pending)
      else g.expire w := by
  simp [next, h]

theorem next_of_settled {c : Command} {rest : List Command}
    (h : g.state.phase = .settling due (c :: rest) wake) (hr : w.ring due ≤ g.now) (hd : due ≤ g.now) :
    g.next w p = some (after g.pending
      (g.state.command (.reset rest wake) c p.resetCommandTimeout)) := by
  have hd : due ≤ g.state.moment.instant := hd
  simp [next, advance, h, hr, hd]

theorem next_of_carriedOut (h : g.state.phase = .carriedOut wake) :
    g.next w p = some (after g.pending ({ g.state with
      phase := if g.state.stopping then .polling wake else .evaluating }, [])) := by
  simp [next, advance, h]

theorem next_of_evaluating (h : g.state.phase = .evaluating) :
    g.next w p = some (after g.pending (g.state.evaluate p)) := by
  simp [next, advance, h]

theorem next_of_planning {validUntil : Option Timestamp}
    (h : g.state.phase = .planning validUntil) :
    g.next w p = some (after g.pending ({ g.state with
      phase := .polling (p.wakeAt validUntil g.state.moment) }, [])) := by
  simp [next, advance, h]

theorem next_of_ended (h : g.state.phase = .ended) : g.next w p = none := by
  simp [next, h]

end

theorem moment_of_expire (h : g.expire w = some (g', seen)) :
    g'.state.moment = g.state.moment := by
  simp only [expire, Option.ite_none_right_eq_some] at h
  obtain ⟨-, h⟩ := h
  cases h
  rfl

theorem moment_of_advance {pending : List (Request × Instant)}
    (h : (g.state.advance p).map (after pending) = some (g', seen)) :
    g'.state.moment = g.state.moment := by
  obtain ⟨o, ho, h⟩ := Option.map_eq_some_iff.mp h
  cases h
  exact (LoopStep.of_advance ho).moment

theorem moment_of_look {wake : Instant} (h : g.look w p wake = some (g', seen)) :
    g'.state.moment = g.state.moment := by
  unfold look at h
  dsimp only at h
  split at h
  case isTrue => cases h; rfl
  case isFalse =>
    split at h
    case h_1 r _ _ _ => cases h; cases r <;> rfl
    case h_2 =>
      split at h
      case isTrue => cases h; rfl
      case isFalse =>
        split at h <;> cases h
        rfl

theorem moment_of_next (h : g.next w p = some (g', seen)) :
    g'.state.moment = g.state.moment := by
  unfold next at h
  dsimp only at h
  split at h
  case h_1 => exact moment_of_look h
  case h_2 hp =>
    cases h
    exact (LoopStep.answer _ hp).moment
  case h_3 =>
    split at h
    case isTrue => exact moment_of_advance h
    case isFalse => exact moment_of_expire h
  case h_4 => exact moment_of_expire h
  case h_5 => cases h
  case h_6 => exact moment_of_advance h

theorem now_take {x : Stimulus} : (g.take p x).now = g.now := by
  cases x <;> rfl

namespace Run

theorem trans {more : List (Instant × Stimulus)} {later : List (Moment × Command)}
    (r : Run w p g inputs moves g') (r' : Run w p g' more later g'') :
    Run w p g (inputs ++ more) (moves ++ later) g'' := by
  induction r with
  | refl => exact r'
  | next h _ ih =>
    rw [List.append_assoc]
    exact .next h (ih r')
  | tick h _ ih => exact .tick h (ih r')
  | take h _ ih => exact .take h (ih r')

theorem now_le (r : Run w p g inputs moves g') : g.now ≤ g'.now := by
  induction r with
  | refl => exact Nat.le_refl _
  | next h _ ih => rwa [now, moment_of_next h] at ih
  | tick _ _ ih => exact Nat.le_of_succ_le ih
  | take _ _ ih => rwa [now_take] at ih

theorem now_le_of_mem (r : Run w p g inputs moves g') : ∀ x ∈ inputs, g.now ≤ x.1 := by
  induction r with
  | refl => nofun
  | next h _ ih => rwa [now, moment_of_next h] at ih
  | tick _ _ ih => exact fun x hx => Nat.le_of_succ_le (ih x hx)
  | take _ _ ih =>
    rw [now_take] at ih
    intro x hx
    cases hx with
    | head => exact Nat.le_refl _
    | tail _ hx => exact ih x hx

-- By induction on one run, and the other one can only go on in the same way: what is to be done is done at once, and
-- what comes from outside comes at its time.
theorem deterministic {moves' : List (Moment × Command)} (r : Run w p g inputs moves g')
    (r' : Run w p g inputs moves' g'') (h : g'.next w p = none) (h' : g''.next w p = none)
    (hn : g'.now = g''.now) : moves = moves' := by
  induction r generalizing moves' with
  | refl =>
    cases r' with
    | refl => rfl
    | next hx => cases h.symm.trans hx
    | tick _ r' => exact absurd (hn ▸ r'.now_le) (Nat.not_succ_le_self _)
  | next hx _ ih =>
    cases r' with
    | refl => cases h'.symm.trans hx
    | next hy r' => cases hx.symm.trans hy; rw [ih r' h hn]
    | tick hy => cases hy.symm.trans hx
    | take hy => cases hy.symm.trans hx
  | tick hx r ih =>
    cases r' with
    | refl => exact absurd (hn ▸ r.now_le) (Nat.not_succ_le_self _)
    | next hy => cases hx.symm.trans hy
    | tick _ r' => exact ih r' h hn
    | take => exact absurd (r.now_le_of_mem _ List.mem_cons_self) (Nat.not_succ_le_self _)
  | take hx r ih =>
    cases r' with
    | next hy => cases hx.symm.trans hy
    | tick _ r' => exact absurd (r'.now_le_of_mem _ List.mem_cons_self) (Nat.not_succ_le_self _)
    | take _ r' => exact ih r' h hn

end Run

end Gist

namespace State

def gist (s : State) : Gist :=
  .of s (s.queue.filterMap s.waiting?)

@[simp] theorem gist_moment : s.gist.state.moment = s.moment := rfl

theorem gist_registers : s.gist.state.registers = s.settled := rfl

@[simp] theorem gist_phase : s.gist.state.phase = s.phase.bare s.moment.instant := rfl

theorem gist_phase_of {phase : Phase} (h : s.phase = phase) :
    s.gist.state.phase = phase.bare s.moment.instant := by
  rw [gist_phase, h]

@[simp] theorem gist_stopping : s.gist.state.stopping = s.stopping := rfl

@[simp] theorem gist_released : s.gist.state.released = s.released := rfl

@[simp] theorem gist_pending : s.gist.pending = s.pending := rfl

@[simp] theorem gist_now : s.gist.now = s.moment.instant := rfl

end State

end EntryDoor.Scheduler
