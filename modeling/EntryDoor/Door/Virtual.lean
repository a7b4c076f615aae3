import EntryDoor.Error

namespace EntryDoor

structure VirtualDoor where
  journal : List Command := []
  offline : Bool := false
deriving DecidableEq, Repr, Inhabited

namespace VirtualDoor

def send (d : VirtualDoor) (c : Command) : Except HardwareFault VirtualDoor :=
  if d.offline then .error .offline else .ok { d with journal := d.journal ++ [c] }

def lockStateOf (journal : List Command) : Option DoorState :=
  journal.reverse.findSome? Command.position

def lockState (d : VirtualDoor) : Option DoorState :=
  lockStateOf d.journal

theorem lockStateOf_append (journal : List Command) (c : Command) :
    lockStateOf (journal ++ [c]) = c.position.or (lockStateOf journal) := by
  cases h : c.position <;> simp [lockStateOf, h]

theorem lockState_of_send {d d' : VirtualDoor} {c : Command} (h : d.send c = .ok d') :
    d'.lockState = c.position.or d.lockState := by
  unfold send at h
  split at h <;> simp at h
  subst h
  exact lockStateOf_append d.journal c

end VirtualDoor

end EntryDoor
