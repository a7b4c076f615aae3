import EntryDoor.Scheduler.Call

namespace EntryDoor.Scheduler

inductive Purpose
  | evaluation (validUntil : Option Timestamp)
  | buzz (caller : CallId) (wake : Instant)
  | reset (rest : List Command) (wake : Instant)
deriving DecidableEq

-- Where the loop is. `wake` is the reading at which it evaluates again.
inductive Phase
  | dormant
  | spawned
  -- About to look whether to stop.
  | polling (wake : Instant)
  | waiting (wake : Instant)
  -- The effect of a request is in place, its caller has not been told; `before` is what was there.
  | accepting (caller : CallId) (wake : Instant) (before : Registers)
  -- A request has been carried out; about to look whether to stop before an evaluation.
  | carriedOut (wake : Instant)
  | evaluating
  | commanding (purpose : Purpose) (command : Command) (deadline : Instant)
  | settling (due : Instant) (rest : List Command) (wake : Instant)
  -- About to set the next wake-up.
  | planning (validUntil : Option Timestamp)
  | leaving
  | announced
  | ended

namespace Phase

def isCommanding : Phase → Bool
  | commanding .. => true
  | _ => false

def hasExited : Phase → Bool
  | announced => true
  | ended => true
  | _ => false

def hasEnded : Phase → Bool
  | ended => true
  | _ => false

end Phase

structure State where
  moment : Moment
  registers : Registers
  phase : Phase := .dormant
  calls : List Call := []
  line : List CallId := []
  -- The queue has room for one request; callers wait in line for it.
  slot : Option CallId := none
  stopping : Bool := false
  -- Whether the loop is still to be had by the first start.
  unclaimed : Bool := true
  -- Whether there is a handle on the loop for a stop to take.
  hasHandle : Bool := false
  released : Bool := false

namespace State

def initial (schedule : Schedule) (m : Moment) : State where
  moment := m
  registers := { schedule }

def status (s : State) : Status :=
  s.registers.statusAt s.moment.clock

-- Nobody can make or has open a call.
def Abandoned (s : State) : Prop :=
  s.released ∧ ∀ c ∈ s.calls, c.isOver

instance (s : State) : Decidable s.Abandoned := by
  unfold Abandoned
  infer_instance

def setStage (s : State) (i : CallId) (r : Request) (stage : RequestStage) : State :=
  { s with calls := s.calls.set i (.request r stage) }

end State

end EntryDoor.Scheduler
