import EntryDoor.Calendar.Timestamp

namespace EntryDoor

inductive DoorState
  | locked
  | unlocked
deriving DecidableEq, Repr, Inhabited

-- What the hardware understands. `buzz` releases the latch for a moment.
inductive Command
  | lock
  | unlock
  | buzz
deriving DecidableEq, Repr, Inhabited

namespace DoorState

def name : DoorState → String
  | locked => "locked"
  | unlocked => "unlocked"

def command : DoorState → Command
  | locked => .lock
  | unlocked => .unlock

def all : List DoorState := [locked, unlocked]

def named? (name : String) : Option DoorState :=
  all.find? (·.name == name)

theorem named?_name (s : DoorState) : named? s.name = some s := by
  cases s <;> decide

end DoorState

namespace Command

def name : Command → String
  | lock => "lock"
  | unlock => "unlock"
  | buzz => "open"

def all : List Command := [lock, unlock, buzz]

def named? (name : String) : Option Command :=
  all.find? (·.name == name)

theorem named?_name (c : Command) : named? c.name = some c := by
  cases c <;> decide

def position : Command → Option DoorState
  | lock => some .locked
  | unlock => some .unlocked
  | buzz => none

@[simp] theorem position_command (s : DoorState) : s.command.position = some s := by
  cases s <;> rfl

end Command

-- It ends just before `expiry`.
structure Overwrite where
  state : DoorState
  expiry : Timestamp
  issuedBy : String
deriving DecidableEq, Repr

def Overwrite.ActiveAt (o : Overwrite) (t : Timestamp) : Prop :=
  t < o.expiry

instance (o : Overwrite) (t : Timestamp) : Decidable (o.ActiveAt t) := by
  unfold Overwrite.ActiveAt
  infer_instance

-- Without `validUntil` no end is known.
structure Resolved where
  state : DoorState
  validUntil : Option Timestamp
deriving DecidableEq, Repr

def Resolved.lockedIndefinitely : Resolved := ⟨.locked, none⟩

structure Status where
  state : DoorState
  validUntil : Option Timestamp
  resetInProgress : Bool
  overwrite : Option Overwrite
deriving DecidableEq, Repr

end EntryDoor
