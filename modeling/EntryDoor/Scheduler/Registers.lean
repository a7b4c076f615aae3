import EntryDoor.Policy
import EntryDoor.Schedule

namespace EntryDoor.Scheduler

inductive Request
  | recompute
  | overwrite (o : Overwrite)
  | replace (s : Schedule)
  | reset
  | buzz

structure Registers where
  schedule : Schedule
  overwrite : Option Overwrite := none
  resetting : Bool := false
  -- Without a target the next evaluation starts a new budget.
  target : Option DoorState := none
  retries : Nat := 0
  maxTries : Nat := 0

namespace Registers

def overwriteAt (r : Registers) (t : Timestamp) : Option Overwrite :=
  r.overwrite.filter fun o => o.ActiveAt t

-- What the door should be at `t`: an active overwrite wins over the schedule.
def statusAt (r : Registers) (t : Timestamp) : Status :=
  match r.overwriteAt t with
  | some o => ⟨o.state, some o.expiry, r.resetting, some o⟩
  | none =>
    let resolved := r.schedule.stateAt t
    ⟨resolved.state, resolved.validUntil, r.resetting, none⟩

def install (r : Registers) : Request → Registers
  | .overwrite o => { r with overwrite := some o }
  | .replace s => { r with schedule := s }
  | .reset => { r with overwrite := none, resetting := true }
  | .recompute => r
  | .buzz => r

-- A request is installed before its caller is told, and withdrawn if the caller is gone by then.
def withdraw (r before : Registers) : Request → Registers
  | .overwrite _ => { r with overwrite := before.overwrite }
  | .replace _ => { r with schedule := before.schedule }
  | .reset => { r with overwrite := before.overwrite, resetting := false }
  | .recompute => r
  | .buzz => r

theorem withdraw_install {r : Registers} (h : r.resetting = false) (q : Request) :
    (r.install q).withdraw r q = r := by
  cases q <;> simp [install, withdraw, ← h]

def clearExpired (r : Registers) (clock : Timestamp) : Registers :=
  { r with overwrite := r.overwriteAt clock }

theorem overwriteAt_clearExpired (r : Registers) {clock t : Timestamp} (h : clock ≤ t) :
    (r.clearExpired clock).overwriteAt t = r.overwriteAt t := by
  cases ho : r.overwrite with
  | none => simp [overwriteAt, clearExpired, ho]
  | some o =>
    by_cases hc : o.ActiveAt clock
    · simp [overwriteAt, clearExpired, ho, hc, Option.filter]
    · have ht : ¬ o.ActiveAt t := fun ht => hc (Timestamp.lt_of_le_of_lt h ht)
      simp [overwriteAt, clearExpired, ho, hc, ht, Option.filter]

theorem statusAt_clearExpired (r : Registers) {clock t : Timestamp} (h : clock ≤ t) :
    (r.clearExpired clock).statusAt t = r.statusAt t := by
  simp only [statusAt, r.overwriteAt_clearExpired h]
  rfl

def restart (r : Registers) : Registers :=
  { r with target := none }

def aim (r : Registers) (p : Policy) (state : DoorState) : Registers :=
  if r.target = some state then r
  else { r with target := some state, retries := 0, maxTries := p.maxTries state }

def spend? (r : Registers) : Option Registers :=
  if r.retries < r.maxTries then some { r with retries := r.retries + 1 } else none

end Registers

end EntryDoor.Scheduler
