import EntryDoor.Door.Scripted
import EntryDoor.Scheduler.Engine.Time

namespace EntryDoor

open Scheduler

structure ScriptChange where
  offline : Option Bool := none
  delay : Option Duration := none
  hang : Option Bool := none
deriving DecidableEq, Repr, Inhabited

def DoorScript.change (s : DoorScript) (c : ScriptChange) : DoorScript where
  offline := c.offline.getD s.offline
  delay := c.delay.getD s.delay
  hang := c.hang.getD s.hang

structure Rehearsal where
  engine : Engine ScriptedDoor
  named : List (String × CallId) := []

namespace Rehearsal

inductive Step
  | look
  | sleep (d : Duration)
  | door (change : ScriptChange)
  | call (what : Invocation)
  | spawn (name : String) (what : Invocation)
  | join (name : String)
  | cancel (name : String)
  | release

def initial (schedule : Schedule) (clock : Timestamp) (policy : Policy) (script : DoorScript) :
    Rehearsal where
  engine := {
    policy
    state := .initial schedule ⟨0, clock⟩
    door := { script } }

def state (r : Rehearsal) : Scheduler.State :=
  r.engine.state

def door (r : Rehearsal) : ScriptedDoor :=
  r.engine.door

def perform (r : Rehearsal) : Step → Rehearsal × Option (Except Failure Unit)
  | .look => (r, none)
  | .sleep d => ({ r with engine := r.engine.run d }, none)
  | .door change =>
    let door := { r.door with script := r.door.script.change change }
    ({ r with engine := { r.engine with door } }, none)
  | .call what =>
    let (i, engine) := r.engine.call what
    ({ r with engine }, engine.result? i)
  | .spawn name what =>
    let (i, engine) := r.engine.spawn what
    ({ r with engine, named := (name, i) :: r.named }, none)
  | .join name =>
    match r.named.lookup name with
    | some i =>
      let engine := r.engine.await i
      ({ r with engine }, engine.result? i)
    | none => (r, none)
  | .cancel name =>
    match r.named.lookup name with
    | some i => ({ r with engine := r.engine.drop i }, none)
    | none => (r, none)
  | .release => ({ r with engine := r.engine.release }, none)

-- Whatever the script asks for, the scheduler takes steps of its own only: a new script of the door leaves the policy
-- and the state alone, and a name that no call has is no step at all.
theorem reaches_perform (r : Rehearsal) (step : Step) : r.engine.Reaches (r.perform step).1.engine := by
  cases step with
  | look => exact .refl r.engine
  | sleep d => exact r.engine.reaches_run d
  | door change => exact .refl r.engine
  | call what => exact r.engine.reaches_call what
  | spawn name what => exact r.engine.reaches_spawn what
  | join name =>
    unfold perform
    dsimp only
    split
    · exact r.engine.reaches_await _
    · exact .refl r.engine
  | cancel name =>
    unfold perform
    dsimp only
    split
    · exact r.engine.reaches_drop _
    · exact .refl r.engine
  | release => exact r.engine.reaches_release

def settle (r : Rehearsal) : Rehearsal :=
  { r with engine := r.engine.settle none }

end Rehearsal

end EntryDoor
