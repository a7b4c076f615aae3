import EntryDoor.Scheduler.Pause
import EntryDoor.Scheduler.State

namespace EntryDoor.Scheduler

inductive Wake
  | shutdown
  | abandoned
  | request
  | timer
deriving DecidableEq, Repr

inductive LoopEvent
  | advance
  | wake (cause : Wake)
  | answer (result : Except HardwareFault Unit)
  | timeOut

inductive CallEvent
  | advance
  | giveUp
  | drop

inductive Event
  | pass (elapsed : Duration) (clock : Timestamp)
  | release
  | invoke (what : Invocation)
  | call (i : CallId) (e : CallEvent)
  | loop (e : LoopEvent)

inductive Occurrence
  | accepted (caller : CallId) (request : Request)
  | evaluated (status : Status)
  | called (purpose : Purpose) (command : Command)
  | answered (purpose : Purpose) (command : Command) (result : Except Failure Unit)

-- A state and what was seen on the way to it.
abbrev Outcome := State × List Occurrence

namespace State

variable (p : Policy) (s : State)

def command (purpose : Purpose) (c : Command) (limit : Duration) : Outcome :=
  ({ s with phase := .commanding purpose c (s.moment.instant.after limit) }, [.called purpose c])

def carryOut (caller : CallId) (wake : Instant) : Request → Outcome
  | .recompute => ({ s with registers := s.registers.restart, phase := .carriedOut wake }, [])
  | .overwrite _ => ({ s with registers := s.registers.restart, phase := .carriedOut wake }, [])
  | .replace _ => ({ s with registers := s.registers.restart, phase := .carriedOut wake }, [])
  -- Unlocks, locks and unlocks.
  | .reset => s.command (.reset [.lock, .unlock] wake) .unlock p.resetCommandTimeout
  | .buzz => s.command (.buzz caller wake) .buzz p.commandTimeout

def receive (wake : Instant) : Option Outcome := do
  let caller ← s.slot
  match s.calls[caller]? with
  | some (.request r _) =>
    some ({ s with
      slot := none
      registers := s.registers.install r
      phase := .accepting caller wake s.registers }, [])
  | _ => none

def complete (caller : CallId) (wake : Instant) (before : Registers) : Option Outcome :=
  match s.calls[caller]? with
  | some (.request r (.queued _)) =>
    let (s, seen) := (s.setStage caller r .accepted).carryOut p caller wake r
    some (s, .accepted caller r :: seen)
  -- The caller has gone, so the effect is taken back. The wake-up stays.
  | some (.request r _) =>
    some ({ s with registers := s.registers.withdraw before r, phase := .polling wake }, [])
  | _ => none

def evaluate : Outcome :=
  let clock := s.moment.clock
  let cleared := s.registers.clearExpired clock
  let status := cleared.statusAt clock
  let aimed := cleared.aim p status.state
  match aimed.spend? with
  | some spent =>
    let (s, seen) := { s with registers := spent }.command (.evaluation status.validUntil)
      status.state.command p.commandTimeout
    (s, .evaluated status :: seen)
  | none => ({ s with registers := aimed, phase := .planning status.validUntil }, [.evaluated status])

def reply (caller : CallId) (result : Except Failure Unit) : State :=
  match s.calls[caller]? with
  | some (.request r .accepted) => s.setStage caller r (.replied result)
  -- The caller has gone.
  | _ => s

def afterCommand (result : Except Failure Unit) : Purpose → State
  | .evaluation validUntil => { s with phase := .planning validUntil }
  | .buzz caller wake => { s.reply caller result with phase := .polling wake }
  | .reset [] wake =>
    { s with
      registers := { s.registers.restart with resetting := false }
      phase := .carriedOut wake }
  | .reset rest wake =>
    { s with phase := .settling (s.moment.instant.after p.resetSettleDelay) rest wake }

def answered (result : Except Failure Unit) (purpose : Purpose) (c : Command) : Outcome :=
  (s.afterCommand p result purpose, [.answered purpose c result])

def advance : Option Outcome :=
  match s.phase with
  | .spawned => some ({ s with phase := .polling s.moment.instant }, [])
  | .polling wake => some ({ s with phase := if s.stopping then .leaving else .waiting wake }, [])
  | .accepting caller wake before => s.complete p caller wake before
  | .carriedOut wake =>
    some ({ s with phase := if s.stopping then .polling wake else .evaluating }, [])
  | .evaluating => some (s.evaluate p)
  | .settling due (c :: rest) wake =>
    if due ≤ s.moment.instant then some (s.command (.reset rest wake) c p.resetCommandTimeout)
    else none
  | .planning validUntil =>
    some ({ s with phase := .polling (p.wakeAt validUntil s.moment) }, [])
  | .leaving => some ({ s with phase := .announced }, [])
  | .announced => some ({ s with phase := .ended, slot := none }, [])
  | _ => none

def wakeUp (wake : Instant) : Wake → Option Outcome
  | .shutdown => if s.stopping then some ({ s with phase := .polling wake }, []) else none
  | .abandoned => if s.Abandoned then some ({ s with phase := .leaving }, []) else none
  | .request => s.receive wake
  | .timer => if wake ≤ s.moment.instant then some ({ s with phase := .evaluating }, []) else none

def loopStep : LoopEvent → Option Outcome
  | .advance => s.advance p
  | .wake cause =>
    match s.phase with
    | .waiting wake => s.wakeUp wake cause
    | _ => none
  | .answer result =>
    match s.phase with
    | .commanding purpose c _ => some (s.answered p (result.mapError .hardware) purpose c)
    | _ => none
  | .timeOut =>
    match s.phase with
    | .commanding purpose c deadline =>
      if deadline ≤ s.moment.instant then
        some (s.answered p (.error (.scheduler (.commandTimedOut c))) purpose c)
      else none
    | _ => none

def giveUpCause? (deadline : Instant) : Option SchedulerError :=
  if s.stopping ∨ s.phase.hasEnded then some .stopped
  else if deadline ≤ s.moment.instant then some .requestTimedOut
  else none

def requestStep (i : CallId) (r : Request) (stage : RequestStage) (e : CallEvent) : Option State :=
  match e, stage with
  | .advance, .created =>
    if s.stopping then some (s.setStage i r (.refused .stopped))
    else some { s.setStage i r (.sending (s.moment.instant.after p.requestTimeout)) with
      line := s.line ++ [i] }
  | .advance, .sending deadline =>
    if s.slot = none ∧ s.line.head? = some i ∧ ¬ s.phase.hasEnded then
      some { s.setStage i r (.queued deadline) with slot := some i, line := s.line.tail }
    else none
  | .advance, .accepted =>
    match r with
    | .buzz => none
    | _ => some (s.setStage i r (.done (.ok ())))
  | .advance, .replied result => some (s.setStage i r (.done result))
  | .giveUp, .sending deadline =>
    (s.giveUpCause? deadline).map fun cause =>
      { s.setStage i r (.refused cause) with line := s.line.erase i }
  | .giveUp, .queued deadline =>
    (s.giveUpCause? deadline).map fun cause => s.setStage i r (.refused cause)
  | .drop, stage =>
    if stage.isOver then none
    else some { s.setStage i r .dropped with line := s.line.erase i }
  | _, _ => none

def startStep (i : CallId) : StartStage → Option State
  | .created =>
    let stage := if s.stopping then .finished (.error .stopped) else .checked
    some { s with calls := s.calls.set i (.start stage) }
  | .checked =>
    let stage := if s.unclaimed then .claimed else .finished (.error .alreadyStarted)
    some { s with calls := s.calls.set i (.start stage), unclaimed := false }
  | .claimed => some { s with calls := s.calls.set i (.start .spawned), phase := .spawned }
  | .spawned =>
    some { s with calls := s.calls.set i (.start (.finished (.ok ()))), hasHandle := true }
  | .finished _ => none

def stopStep (i : CallId) : StopStage → Option State
  | .created => some { s with calls := s.calls.set i (.stop .flagged), stopping := true }
  | .flagged =>
    let stage := if s.hasHandle then .joining else .unjoined
    some { s with calls := s.calls.set i (.stop stage), hasHandle := false }
  | .joining =>
    if s.phase.hasEnded then some { s with calls := s.calls.set i (.stop .unjoined) } else none
  | .unjoined =>
    let stage := if s.unclaimed then .finished else .awaitingExit
    some { s with calls := s.calls.set i (.stop stage) }
  | .awaitingExit =>
    if s.phase.hasExited then some { s with calls := s.calls.set i (.stop .finished) } else none
  | .finished => none
  | .dropped => none

def callStep (i : CallId) (e : CallEvent) : Option State := do
  match ← s.calls[i]?, e with
  | .request r stage, e => s.requestStep p i r stage e
  | .start stage, .advance => s.startStep i stage
  | .stop stage, .advance => s.stopStep i stage
  | .stop stage, .drop =>
    if stage = .finished ∨ stage = .dropped then none
    else some { s with calls := s.calls.set i (.stop .dropped) }
  | _, _ => none

-- An event that cannot happen in a state has no outcome there. Which one of several comes next is left open.
def step : Event → Option Outcome
  | .pass elapsed clock =>
    some ({ s with moment := ⟨s.moment.instant + elapsed.nanos, clock⟩ }, [])
  | .release => some ({ s with released := true }, [])
  | .invoke what =>
    if s.released then none else some ({ s with calls := s.calls ++ [what.call] }, [])
  | .call i e => (s.callStep p i e).map fun s => (s, [])
  | .loop e => s.loopStep p e

end State

end EntryDoor.Scheduler
