import EntryDoor.Door.Actuator
import EntryDoor.Door.Configured

namespace EntryDoor

-- The door answers at once; what goes to the broker is kept until it is fetched.
structure LiveDoor where
  door : ConfiguredDoor
  answer : Option (Except HardwareFault Unit) := none
  outbox : List Message := []

namespace LiveDoor

def call (d : LiveDoor) (c : Command) (m : Moment) : LiveDoor :=
  match d.door.send c m.clock with
  | .ok (door, message) => ⟨door, some (.ok ()), d.outbox ++ message.toList⟩
  | .error fault => { d with answer := some (.error fault) }

instance : Actuator LiveDoor where
  call := call
  answer? d _ := d.answer.map fun result => (result, { d with answer := none })
  abandon d := { d with answer := none }
  due? _ := none

end LiveDoor

end EntryDoor
