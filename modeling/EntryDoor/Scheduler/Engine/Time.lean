import EntryDoor.Scheduler.Engine.Basic

namespace EntryDoor.Scheduler.Engine

variable {δ : Type} [Actuator δ] (e : Engine δ)

-- Timers go off at whole milliseconds.
def wholeMillis (t : Instant) : Instant :=
  (t + 999999) / 1000000 * 1000000

def loopDue : List Instant :=
  match e.state.phase with
  | .waiting wake => [wake]
  | .commanding _ _ deadline => deadline :: (Actuator.due? e.door).toList
  | .settling due _ _ => [due]
  | _ => []

def callDue : Call → List Instant
  | .request _ (.sending deadline) => [deadline]
  | .request _ (.queued deadline) => [deadline]
  | _ => []

def due? : Option Instant :=
  let due := (e.loopDue ++ e.state.calls.flatMap callDue).map wholeMillis
  (due.filter (e.state.moment.instant < ·)).min?

def passTo (t : Instant) : Engine δ :=
  let elapsed : Duration := ⟨t - e.state.moment.instant⟩
  (e.apply (.pass elapsed (e.state.moment.clock + elapsed))).wake

-- What is due at `t` has not happened then.
def runTo (t : Instant) : Nat → Engine δ → Engine δ
  | 0, e => e.passTo t
  | n + 1, e =>
    let e := e.settle none
    match e.due? with
    | some due => if due < t then runTo t n (e.passTo due) else e.passTo t
    | none => e.passTo t

-- No more timers go off than milliseconds pass.
def run (d : Duration) : Engine δ :=
  if d = .zero then e
  else runTo (e.state.moment.instant + d.nanos) (d.nanos / 1000000 + 1) e

def runUntil (i : CallId) (foreground : Option CallId) : Nat → Engine δ → Engine δ
  | 0, e => e
  | n + 1, e =>
    let e := e.settle foreground
    if e.isOver i then e
    else
      match e.due?, foreground with
      | some due, none => runUntil i foreground n (e.passTo due)
      -- a call in the foreground looks at its own timer first
      | some due, some front => runUntil i foreground n ((e.passTo due).goOn (.call front))
      | none, _ => e

-- No call takes longer than these milliseconds: a request waits to be accepted and then for the door at most, a
-- stop for the command or the hard reset in progress.
def patience : Nat :=
  let p := e.policy
  (p.requestTimeout.nanos + p.commandTimeout.nanos + 3 * p.resetCommandTimeout.nanos +
    2 * p.resetSettleDelay.nanos) / 1000000 + 8

def await (i : CallId) : Engine δ :=
  if e.isOver i then e else runUntil i none e.patience e

def invoke (what : Invocation) : CallId × Engine δ :=
  (e.state.calls.length, e.apply (.invoke what))

def call (what : Invocation) : CallId × Engine δ :=
  let (i, e) := e.invoke what
  (i, runUntil i (some i) e.patience (e.goOn (.call i)))

def spawn (what : Invocation) : CallId × Engine δ :=
  let (i, e) := e.invoke what
  (i, { e with ready := e.ready ++ [.call i] })

def drop (i : CallId) : Engine δ :=
  (e.apply (.call i .drop)).wake

def release : Engine δ :=
  (e.apply .release).wake

def result? (i : CallId) : Option (Except Failure Unit) :=
  e.state.calls[i]?.bind (·.result?)

theorem reaches_passTo (t : Instant) : e.Reaches (e.passTo t) :=
  e.reaches_apply _

theorem reaches_runTo (t : Instant) (n : Nat) : e.Reaches (runTo t n e) := by
  induction n generalizing e with
  | zero => exact e.reaches_passTo t
  | succ n ih =>
    refine (e.reaches_settle none).trans ?_
    unfold runTo
    dsimp only
    split
    · split
      · exact (reaches_passTo _ _).trans (ih _)
      · exact reaches_passTo _ _
    · exact reaches_passTo _ _

theorem reaches_run (d : Duration) : e.Reaches (e.run d) := by
  unfold run
  split
  · exact .refl e
  · exact e.reaches_runTo _ _

theorem reaches_runUntil (i : CallId) (foreground : Option CallId) (n : Nat) :
    e.Reaches (runUntil i foreground n e) := by
  induction n generalizing e with
  | zero => exact .refl e
  | succ n ih =>
    refine (e.reaches_settle foreground).trans ?_
    unfold runUntil
    dsimp only
    split
    · exact .refl _
    · split
      · exact (reaches_passTo _ _).trans (ih _)
      · exact ((reaches_passTo _ _).trans (reaches_goOn _ _)).trans (ih _)
      · exact .refl _

theorem reaches_await (i : CallId) : e.Reaches (e.await i) := by
  unfold await
  split
  · exact .refl e
  · exact e.reaches_runUntil i none _

theorem reaches_invoke (what : Invocation) : e.Reaches (e.invoke what).2 :=
  e.reaches_apply _

theorem reaches_call (what : Invocation) : e.Reaches (e.call what).2 :=
  ((e.reaches_invoke what).trans (reaches_goOn _ _)).trans (reaches_runUntil _ _ _ _)

theorem reaches_spawn (what : Invocation) : e.Reaches (e.spawn what).2 :=
  e.reaches_invoke what

theorem reaches_drop (i : CallId) : e.Reaches (e.drop i) :=
  e.reaches_apply _

theorem reaches_release : e.Reaches e.release :=
  e.reaches_apply _

end EntryDoor.Scheduler.Engine
