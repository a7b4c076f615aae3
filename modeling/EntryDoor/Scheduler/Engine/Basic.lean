import EntryDoor.Door.Actuator
import EntryDoor.Scheduler.Run

namespace EntryDoor.Scheduler

inductive Task
  | loop
  | call (i : CallId)
deriving DecidableEq, Repr

-- Tasks take turns, and in its turn a task goes on until it has to wait.
structure Engine (δ : Type) where
  policy : Policy
  state : State
  door : δ
  ready : List Task := []
  -- The tasks in the background in the order in which they have set their timers.
  timers : List Task := [.loop]

namespace Engine

variable {δ : Type}

def Reaches (e e' : Engine δ) : Prop :=
  e'.policy = e.policy ∧ ∃ seen, Run e.policy e.state seen e'.state

theorem Reaches.refl (e : Engine δ) : e.Reaches e :=
  ⟨rfl, _, .refl⟩

theorem Reaches.trans {e₁ e₂ e₃ : Engine δ} : e₁.Reaches e₂ → e₂.Reaches e₃ → e₁.Reaches e₃
  | ⟨h, _, r⟩, ⟨h', _, r'⟩ => ⟨h'.trans h, _, r.trans (h ▸ r')⟩

variable [Actuator δ] (e : Engine δ)

-- A loop that waits looks for a stop first, then for a request, and for its timer last.
def loopEvent? : Option (LoopEvent × δ) :=
  let now := e.state.moment.instant
  match e.state.phase with
  | .dormant => none
  | .ended => none
  | .waiting wake =>
    if e.state.stopping then some (.wake .shutdown, e.door)
    else if e.state.Abandoned then some (.wake .abandoned, e.door)
    else if e.state.slot.isSome then some (.wake .request, e.door)
    else if wake ≤ now then some (.wake .timer, e.door)
    else none
  | .commanding _ _ deadline =>
    match Actuator.answer? e.door e.state.moment with
    | some (result, door) => some (.answer result, door)
    | none => if deadline ≤ now then some (.timeOut, Actuator.abandon e.door) else none
  | .settling due _ _ => if due ≤ now then some (.advance, e.door) else none
  | _ => some (.advance, e.door)

def requestEvent? (i : CallId) (r : Request) : RequestStage → Option CallEvent
  | .created => some .advance
  | .sending deadline =>
    match e.state.giveUpCause? deadline with
    | some .stopped => some .giveUp
    | cause =>
      if e.state.slot = none ∧ e.state.line.head? = some i then some .advance
      else cause.map fun _ => .giveUp
  | .queued deadline => (e.state.giveUpCause? deadline).map fun _ => .giveUp
  | .accepted =>
    match r with
    | .buzz => none
    | _ => some .advance
  | .replied _ => some .advance
  | _ => none

def callEvent? (i : CallId) : Option CallEvent :=
  match e.state.calls[i]? with
  | some (.request r stage) => e.requestEvent? i r stage
  | some (.start (.finished _)) => none
  | some (.start _) => some .advance
  | some (.stop .joining) => if e.state.phase.hasEnded then some .advance else none
  | some (.stop .awaitingExit) => if e.state.phase.hasExited then some .advance else none
  | some (.stop .finished) => none
  | some (.stop .dropped) => none
  | some (.stop _) => some .advance
  | none => none

def apply (event : Event) : Engine δ :=
  match e.state.step e.policy event with
  | none => e
  | some (state, seen) =>
    { e with
      state
      door := seen.foldl (fun door seen =>
        match seen with
        | .called _ c => Actuator.call door c state.moment
        | _ => door) e.door }

def event? : Task → Option (Engine δ)
  | .loop => e.loopEvent?.map fun (event, door) => { e with door }.apply (.loop event)
  | .call i => (e.callEvent? i).map fun event => e.apply (.call i event)

def events (t : Task) : Nat → Engine δ → Engine δ
  | 0, e => e
  | n + 1, e =>
    match e.event? t with
    | some e => events t n e
    | none => e

-- No task has more events than these before it has to wait.
def turnLength : Nat := 64

def isReady (t : Task) : Bool :=
  (e.event? t).isSome

-- Of several tasks that can go on now, the one whose timer was set first comes first.
def wake : Engine δ :=
  { e with ready := e.ready ++ e.timers.filter fun t => !e.ready.contains t && e.isReady t }

def goOn (t : Task) : Engine δ :=
  (events t turnLength e).wake

-- The loop sets a new timer whenever it waits, a call has one for good.
def timersAfter (t : Task) : List Task :=
  if t ≠ .loop ∧ t ∈ e.timers then e.timers else e.timers.erase t ++ [t]

def turn (t : Task) : Engine δ :=
  if e.isReady t then { e.goOn t with timers := e.timersAfter t } else e

def isOver (i : CallId) : Bool :=
  e.state.calls[i]?.all (·.isOver)

-- The call in the foreground goes on when no other task can, and all stop when it is over.
def turns (foreground : Option CallId) : Nat → Engine δ → Engine δ
  | 0, e => e
  | n + 1, e =>
    if foreground.any e.isOver then e
    else
      match e.ready, foreground with
      | t :: rest, _ => turns foreground n ({ e with ready := rest }.turn t)
      | [], some i => if e.isReady (.call i) then turns foreground n (e.goOn (.call i)) else e
      | [], none => e

def settle (foreground : Option CallId) : Engine δ :=
  turns foreground (16 * (e.state.calls.length + 1)) e

theorem reaches_apply (event : Event) : e.Reaches (e.apply event) := by
  unfold apply
  split
  · exact .refl e
  · exact ⟨rfl, _, .single ‹_›⟩

theorem reaches_event? {t : Task} {e' : Engine δ} (h : e.event? t = some e') : e.Reaches e' := by
  cases t with
  | loop =>
    obtain ⟨⟨event, door⟩, -, rfl⟩ := Option.map_eq_some_iff.mp h
    exact reaches_apply { e with door } _
  | call i =>
    obtain ⟨event, -, rfl⟩ := Option.map_eq_some_iff.mp h
    exact e.reaches_apply _

theorem reaches_events (t : Task) (n : Nat) : e.Reaches (events t n e) := by
  induction n generalizing e with
  | zero => exact .refl e
  | succ n ih =>
    unfold events
    split
    · exact (e.reaches_event? ‹_›).trans (ih _)
    · exact .refl e

theorem reaches_goOn (t : Task) : e.Reaches (e.goOn t) :=
  e.reaches_events t turnLength

theorem reaches_turn (t : Task) : e.Reaches (e.turn t) := by
  unfold turn
  split
  · exact e.reaches_goOn t
  · exact .refl e

theorem reaches_turns (foreground : Option CallId) (n : Nat) :
    e.Reaches (turns foreground n e) := by
  induction n generalizing e with
  | zero => exact .refl e
  | succ n ih =>
    unfold turns
    split
    · exact .refl e
    · split
      · next t rest _ _ => exact (reaches_turn { e with ready := rest } t).trans (ih _)
      · split
        · exact (e.reaches_goOn _).trans (ih _)
        · exact .refl e
      · exact .refl e

theorem reaches_settle (foreground : Option CallId) : e.Reaches (e.settle foreground) :=
  e.reaches_turns foreground _

end Engine

end EntryDoor.Scheduler
