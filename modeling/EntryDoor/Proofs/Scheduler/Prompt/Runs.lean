import EntryDoor.Proofs.Scheduler.Queue
import EntryDoor.Proofs.Scheduler.Stop

namespace EntryDoor.Scheduler

open State

-- What does not depend on the scheduler: the wall clock, when a timer goes off that is set for a reading, and what a
-- command comes to.
structure World where
  clock : Instant → Timestamp
  ring : Instant → Instant
  door : Moment → Command → Except HardwareFault Unit

namespace World

def moment (w : World) (t : Instant) : Moment :=
  ⟨t, w.clock t⟩

end World

-- What the loop is asked for, and until when. Nothing is said of buzzes.
def Call.waiting? : Call → Option (Request × Instant)
  | request r (.sending d) => if r.isBuzz then none else some (r, d)
  | request r (.queued d) => if r.isBuzz then none else some (r, d)
  | _ => none

-- The loop is about to end.
def Phase.isLeaving : Phase → Bool
  | leaving => true
  | announced => true
  | ended => true
  | _ => false

namespace State

def waiting? (s : State) : CallId → Option (Request × Instant) :=
  s.about Call.waiting?

-- No request is going to be accepted any more.
def deaf (s : State) : Bool :=
  s.stopping || s.phase.isLeaving

-- The requests that the loop is still to accept, in the order in which it gets to them.
def pending (s : State) : List (Request × Instant) :=
  if s.deaf then [] else s.queue.filterMap s.waiting?

-- How many of these come before that of caller `i`.
def rank (s : State) (i : CallId) : Nat :=
  ((s.queue.takeWhile (· != i)).filterMap s.waiting?).length

end State

-- Call `i` does nothing before the reading `t` that the loop could notice.
def Call.Rests (w : World) (s : State) (t : Instant) (i : CallId) : Call → Prop
  | request _ (.sending d) => ¬(s.slot = none ∧ s.line.head? = some i) ∧ t ≤ w.ring d
  | request _ (.queued d) => t ≤ w.ring d
  | request _ stage => stage.isOver
  | start stage => (start stage).isOver
  | stop stage => stage ≠ .created

instance {w : World} {s : State} {t : Instant} {i : CallId} (c : Call) :
    Decidable (c.Rests w s t i) := by
  unfold Call.Rests
  split <;> infer_instance

namespace State

variable (w : World) (t : Instant) (s : State)

-- The loop does nothing before `t`.
def LoopRests : Prop :=
  match s.phase with
  | .dormant => True
  | .waiting wake => s.stopping = false ∧ ¬s.Abandoned ∧ s.slot = none ∧ t ≤ w.ring wake
  | .settling due _ _ => t ≤ w.ring due
  | .ended => True
  | _ => False

instance : Decidable (s.LoopRests w t) := by
  unfold LoopRests
  split <;> infer_instance

-- Nothing happens by itself before `t`, but for what one of the calls may do.
def Quiet (but : Option CallId) : Prop :=
  s.LoopRests w t ∧ ∀ i < s.calls.length, ∀ c ∈ s.calls[i]?, but ≠ some i → c.Rests w s t i

instance (but : Option CallId) : Decidable (s.Quiet w t but) := by
  unfold Quiet
  infer_instance

-- Nothing is left to happen at this instant.
def AtRest : Prop :=
  s.Quiet w (s.moment.instant + 1) none

instance : Decidable (s.AtRest w) :=
  inferInstanceAs (Decidable (s.Quiet w (s.moment.instant + 1) none))

end State

-- What the loop gets to notice. A request that is dropped is told by how many others are before it.
inductive Stimulus
  | request (r : Request)
  | start
  | stop
  | drop (rank : Nat)
  | release

-- The stimulus that an event brings, if it brings one. Buzzes do not count.
def State.stimulus? (s : State) : Event → Option Stimulus
  | .release => some .release
  | .call i ce =>
    match s.calls[i]?, ce with
    | some (.request r .created), .advance =>
      if s.deaf || r.isBuzz then none else some (.request r)
    | some (.start .claimed), .advance => some .start
    | some (.stop .created), .advance => some .stop
    | some c, .drop => if s.deaf then none else c.waiting?.map fun _ => .drop (s.rank i)
    | _, _ => none
  | _ => none

-- The loop looks for a stop first, for a request next and for its timer last. Nothing that it does takes time, and it
-- does not wake up at the instant at which it went to sleep.
def LoopEvent.Orderly (w : World) (p : Policy) (s : State) (e : LoopEvent) : Prop :=
  match s.phase, e with
  | .waiting _, .wake .request => s.stopping = false
  | .waiting due, .wake .timer =>
    s.stopping = false ∧ s.slot = none ∧ w.ring due ≤ s.moment.instant
  | .commanding _ c _, .answer result => result = w.door s.moment c
  | .commanding .., .timeOut => False
  | .settling due _ _, .advance => w.ring due ≤ s.moment.instant
  | .planning validUntil, .advance =>
    s.moment.instant < w.ring (p.wakeAt validUntil s.moment)
  | _, _ => True

-- Time passes when nothing is left to happen, and what comes from outside comes then. So no two such things fall on one
-- instant, and neither does a timer or the deadline of a request. All of this is open to buzzes, at any time.
def Event.Orderly (w : World) (p : Policy) (s : State) : Event → Prop
  | .pass elapsed clock =>
    elapsed ≠ .zero ∧ clock = w.clock (s.moment.instant + elapsed.nanos) ∧
      s.Quiet w (s.moment.instant + elapsed.nanos) none
  | .release => s.AtRest w
  | .invoke _ => True
  | .call i .advance => (s.stimulus? (.call i .advance)).isSome →
    s.released = false ∧ s.Quiet w (s.moment.instant + 1) (some i)
  | .call i .drop => (s.stimulus? (.call i .drop)).isSome → s.AtRest w
  -- A caller whose time is over gives up, unless it can enter the queue.
  | .call i .giveUp => ∀ x ∈ s.waiting? i, s.deaf = false →
    w.ring x.2 ≤ s.moment.instant ∧ ¬(s.slot = none ∧ s.line.head? = some i) ∧
      s.Quiet w (s.moment.instant + 1) (some i)
  | .loop e => e.Orderly w p s

-- When the loop starts, the request that it finds in the queue is none of a buzz and none that was given up, if other
-- requests wait.
def Event.StartsClear (s : State) (e : Event) : Prop :=
  (s.stimulus? e matches some .start) → s.pending.isEmpty ∨ (s.slot.bind s.waiting?).isSome

-- What happens falls on an instant of its own, and the loop starts clear.
def Event.Apart (w : World) (p : Policy) (s : State) (e : Event) : Prop :=
  e.Orderly w p s ∧ e.StartsClear s

instance : DecidableEq (Except HardwareFault Unit)
  | .ok _, .ok _ => isTrue rfl
  | .ok _, .error _ => isFalse nofun
  | .error _, .ok _ => isFalse nofun
  | .error e, .error e' => decidable_of_iff (e = e') (by rw [Except.error.injEq])

section

variable {w : World} {p : Policy} {s : State}

instance (e : LoopEvent) : Decidable (e.Orderly w p s) := by
  unfold LoopEvent.Orderly
  split <;> infer_instance

instance : (e : Event) → Decidable (e.Orderly w p s)
  | .pass .. => inferInstanceAs (Decidable (_ ∧ _ ∧ _))
  | .release => inferInstanceAs (Decidable (s.AtRest w))
  | .invoke _ => .isTrue trivial
  | .call _ .advance => inferInstanceAs (Decidable (_ → _ ∧ _))
  | .call _ .drop => inferInstanceAs (Decidable (_ → s.AtRest w))
  | .call i .giveUp => inferInstanceAs (Decidable (∀ x ∈ s.waiting? i, _ → _ ∧ _ ∧ _))
  | .loop e => inferInstanceAs (Decidable (e.Orderly w p s))

instance (e : Event) : Decidable (e.StartsClear s) :=
  inferInstanceAs (Decidable (_ → _ ∨ _))

instance (e : Event) : Decidable (e.Apart w p s) :=
  inferInstanceAs (Decidable (e.Orderly w p s ∧ e.StartsClear s))

end

-- Runs in which each event is one of those allowed, with the stimuli that have come and when.
inductive Driven (allowed : State → Event → Prop) (p : Policy) (s : State) :
    List (Instant × Stimulus) → History → State → Prop
  | refl : Driven allowed p s [] [] s
  | step {inputs : List (Instant × Stimulus)} {seen : History} {t u : State}
      {now : List Occurrence} {e : Event} :
      Driven allowed p s inputs seen t → allowed t e → t.step p e = some (u, now) →
      Driven allowed p s (inputs ++ (t.stimulus? e).toList.map (t.moment.instant, ·))
        (seen ++ now.map (t.moment, ·)) u

section

variable {allowed : State → Event → Prop} {p : Policy} {s t u : State} {seen later : History}
  {inputs more : List (Instant × Stimulus)} {e : Event}

namespace Driven

theorem run (r : Driven allowed p s inputs seen t) : Run p s seen t := by
  induction r
  case refl => exact .refl
  case step _ h hr => exact .step hr h

theorem trans (r : Driven allowed p s inputs seen t) (r' : Driven allowed p t more later u) :
    Driven allowed p s (inputs ++ more) (seen ++ later) u := by
  induction r'
  case refl => rwa [List.append_nil, List.append_nil]
  case step _ ha h ih =>
    rw [← List.append_assoc, ← List.append_assoc]
    exact .step ih ha h

theorem single {now : List Occurrence} (ha : allowed s e) (h : s.step p e = some (t, now)) :
    Driven allowed p s ((s.stimulus? e).toList.map (s.moment.instant, ·))
      (now.map (s.moment, ·)) t :=
  .step .refl ha h

end Driven

-- What comes of the given events, if each of them is allowed and can happen.
def State.drive (p : Policy) (allowed : State → Event → Prop) [∀ s e, Decidable (allowed s e)] :
    State → List Event → Option (List (Instant × Stimulus) × History × State)
  | s, [] => some ([], [], s)
  | s, e :: rest =>
    if allowed s e then
      match s.step p e with
      | some (t, now) =>
        (drive p allowed t rest).map fun x =>
          ((s.stimulus? e).toList.map (s.moment.instant, ·) ++ x.1, now.map (s.moment, ·) ++ x.2.1,
            x.2.2)
      | none => none
    else none

theorem Driven.of_drive [∀ s e, Decidable (allowed s e)] {events : List Event}
    {x : List (Instant × Stimulus) × History × State} (h : s.drive p allowed events = some x) :
    Driven allowed p s x.1 x.2.1 x.2.2 := by
  induction events generalizing s x with
  | nil => cases h; exact .refl
  | cons e rest ih =>
    simp only [State.drive, Option.ite_none_right_eq_some] at h
    have ⟨ha, h⟩ := h
    split at h
    case h_1 hs =>
      obtain ⟨x, hx, rfl⟩ := Option.map_eq_some_iff.mp h
      exact (single ha hs).trans (ih hx)
    case h_2 => cases h

end

-- The command to lock or to unlock that is sent.
def Occurrence.move? : Occurrence → Option Command
  | called _ c => if c = .buzz then none else some c
  | _ => none

namespace History

variable {seen later : History}

-- When the door was told to lock or to unlock.
def moves (seen : History) : List (Moment × Command) :=
  seen.filterMap fun x => x.2.move?.map (x.1, ·)

@[simp] theorem moves_append : moves (seen ++ later) = moves seen ++ moves later :=
  List.filterMap_append

end History

end EntryDoor.Scheduler
