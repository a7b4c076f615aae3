import EntryDoor.Config.Basic

namespace EntryDoor

inductive Qos
  | atMostOnce
  | atLeastOnce
  | exactlyOnce
deriving DecidableEq, Repr, Inhabited

namespace Qos

def level : Qos → Nat
  | atMostOnce => 0
  | atLeastOnce => 1
  | exactlyOnce => 2

def ofLevel? (n : Nat) : Option Qos :=
  [atMostOnce, atLeastOnce, exactlyOnce].find? (·.level == n)

end Qos

structure Message where
  topic : String
  qos : Qos
  retain : Bool
  payload : Json
deriving Repr

-- The connection to the broker. It comes and goes until the door is torn down.
inductive Link
  | down
  | up
  | closed
deriving DecidableEq, Repr, Inhabited

structure MqttDoor where
  qos : Qos
  -- With no slash at its end.
  baseTopic : String
  link : Link := .down
deriving DecidableEq, Repr

namespace MqttDoor

def connect (settings : MqttSettings) : Except HardwareFault MqttDoor :=
  match Qos.ofLevel? settings.qos with
  | some qos =>
    let trimmed := (settings.baseTopic.toList.reverse.dropWhile (· == '/')).reverse
    .ok { qos, baseTopic := String.ofList trimmed }
  | none => .error (.invalidQos settings.qos)

def isConnected (d : MqttDoor) : Bool :=
  d.link == .up

def topic (d : MqttDoor) (c : Command) : String :=
  d.baseTopic ++ "/" ++ c.name

def acknowledged (d : MqttDoor) : MqttDoor :=
  if d.link = .closed then d else { d with link := .up }

def lost (d : MqttDoor) : MqttDoor :=
  if d.link = .closed then d else { d with link := .down }

def teardown (d : MqttDoor) : MqttDoor :=
  { d with link := .closed }

def IsPublishable (topic : String) : Prop :=
  '+' ∉ topic.toList ∧ '#' ∉ topic.toList

instance (topic : String) : Decidable (IsPublishable topic) := by
  unfold IsPublishable
  infer_instance

def payload (c : Command) (issuedAt : Timestamp) : Json :=
  .object [("command", encode c), ("issued_at", encode issuedAt)]

-- Messages are never retained: a controller that comes back must not repeat an old command.
def send (d : MqttDoor) (c : Command) (issuedAt : Timestamp) : Except HardwareFault Message :=
  if d.isConnected = false then .error .notConnected
  else if IsPublishable (d.topic c) then .ok ⟨d.topic c, d.qos, false, payload c issuedAt⟩
  else .error .topicRefused

end MqttDoor

end EntryDoor
