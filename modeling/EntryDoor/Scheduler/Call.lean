import EntryDoor.Scheduler.Moment
import EntryDoor.Scheduler.Registers

namespace EntryDoor.Scheduler

abbrev CallId := Nat

-- A request is handed over in steps: its caller stands in line for the queue, then waits until the loop has
-- accepted the request, and may give up at any point before that.
inductive RequestStage
  | created
  | sending (deadline : Instant)
  -- In the queue, or in the hands of the loop.
  | queued (deadline : Instant)
  | accepted
  | replied (result : Except Failure Unit)
  | refused (cause : SchedulerError)
  | done (result : Except Failure Unit)
  | dropped

inductive StartStage
  | created
  -- The scheduler was not stopped before.
  | checked
  -- This call is the one that starts the loop.
  | claimed
  | spawned
  | finished (result : Except SchedulerError Unit)

inductive StopStage
  | created
  | flagged
  -- Waits for the end of the loop, of which this call alone has the handle.
  | joining
  | unjoined
  | awaitingExit
  | finished
  | dropped
deriving DecidableEq

inductive Invocation
  | request (r : Request)
  | start
  | stop

inductive Call
  | request (r : Request) (stage : RequestStage)
  | start (stage : StartStage)
  | stop (stage : StopStage)

def Invocation.call : Invocation → Call
  | request r => .request r .created
  | start => .start .created
  | stop => .stop .created

namespace RequestStage

def isOver : RequestStage → Bool
  | refused _ => true
  | done _ => true
  | dropped => true
  | _ => false

def result? : RequestStage → Option (Except Failure Unit)
  | refused cause => some (.error (.scheduler cause))
  | done result => some result
  | _ => none

end RequestStage

namespace Call

def isOver : Call → Bool
  | request _ stage => stage.isOver
  | start (.finished _) => true
  | stop .finished => true
  | stop .dropped => true
  | _ => false

def result? : Call → Option (Except Failure Unit)
  | request _ stage => stage.result?
  | start (.finished result) => some (result.mapError .scheduler)
  | stop .finished => some (.ok ())
  | _ => none

end Call

end EntryDoor.Scheduler
