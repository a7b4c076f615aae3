import EntryDoor.Door.Actuator
import EntryDoor.Door.Virtual

namespace EntryDoor

structure DoorScript where
  offline : Bool := false
  delay : Duration := .zero
  hang : Bool := false
deriving DecidableEq, Repr, Inhabited

structure CallRecord where
  began : Instant
  command : Command
  result : Option (Except HardwareFault Unit) := none

-- How long a call takes is settled when it begins, whether the door takes the command when it ends. A call that
-- is abandoned has no effect.
structure ScriptedDoor where
  script : DoorScript
  journal : List Command := []
  -- All calls, latest first.
  records : List CallRecord := []
  due : Option Instant := none

namespace ScriptedDoor

def door (d : ScriptedDoor) : VirtualDoor :=
  ⟨d.journal, d.script.offline⟩

def call (d : ScriptedDoor) (c : Command) (m : Moment) : ScriptedDoor :=
  { d with
    records := { began := m.instant, command := c } :: d.records
    due := if d.script.hang then none else some (m.instant.after d.script.delay) }

def answer (d : ScriptedDoor) : Option (Except HardwareFault Unit × ScriptedDoor) :=
  match d.records with
  | [] => none
  | r :: rest =>
    let (result, journal) := match d.door.send r.command with
      | .ok door => (.ok (), door.journal)
      | .error fault => (.error fault, d.journal)
    some (result,
      { d with journal, records := { r with result := some result } :: rest, due := none })

instance : Actuator ScriptedDoor where
  call := call
  answer? d m :=
    match d.due with
    | some t => if t ≤ m.instant then d.answer else none
    | none => none
  abandon d := { d with due := none }
  due? := due

end ScriptedDoor

end EntryDoor
