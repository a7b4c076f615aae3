import EntryDoor.Door.Mqtt
import EntryDoor.Door.Virtual

namespace EntryDoor

inductive ConfiguredDoor
  | virtual (door : VirtualDoor)
  | mqtt (door : MqttDoor)
deriving Repr

namespace ConfiguredDoor

def connect (c : Config) : Except HardwareFault ConfiguredDoor :=
  match c.door.backend with
  | .virtual => .ok (.virtual {})
  | .mqtt => mqtt <$> MqttDoor.connect c.mqtt

def backend : ConfiguredDoor → Backend
  | virtual _ => .virtual
  | mqtt _ => .mqtt

-- Also the message that the command became, if it went to a broker.
def send (d : ConfiguredDoor) (c : Command) (issuedAt : Timestamp) :
    Except HardwareFault (ConfiguredDoor × Option Message) :=
  match d with
  | virtual door => do return (virtual (← door.send c), none)
  | mqtt door => do return (mqtt door, some (← door.send c issuedAt))

def teardown : ConfiguredDoor → ConfiguredDoor
  | virtual door => virtual door
  | mqtt door => mqtt door.teardown

end ConfiguredDoor

end EntryDoor
