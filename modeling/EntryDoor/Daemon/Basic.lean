import EntryDoor.Daemon.Log
import EntryDoor.Door.Live
import EntryDoor.Scheduler.Engine.Time

namespace EntryDoor

open Scheduler

structure Daemon where
  engine : Engine LiveDoor

structure ConfigSource where
  file : ConfigFile
  environment : Environment := []

namespace ConfigSource

def load (s : ConfigSource) : Except ConfigError Config :=
  Config.load s.file s.environment

def schedule (s : ConfigSource) : Except ConfigError Schedule := do
  (← s.load).schedule

end ConfigSource

namespace Daemon

def previewCount : Nat := 3

def warnings (s : Schedule) : List LogLine :=
  if s.rules.isEmpty then [.noOpeningHours] else []

def report (d : Daemon) : List LogLine :=
  let s := d.engine.state
  .running s.status :: (s.registers.schedule.upcoming s.moment.clock previewCount).map .upcoming

def invoke (d : Daemon) (what : Invocation) : Daemon × Option (Except Failure Unit) :=
  let (i, engine) := d.engine.call what
  (⟨engine⟩, engine.result? i)

def settle (d : Daemon) : Daemon :=
  ⟨d.engine.settle none⟩

def start (source : ConfigSource) (m : Moment) : Except StartupError (Daemon × List LogLine) := do
  let config ← source.load.mapError .configuration
  let schedule ← config.schedule.mapError .openingHours
  let door ← (ConfiguredDoor.connect config).mapError .door
  let engine : Engine LiveDoor :=
    { policy := config.policy, state := .initial schedule m, door := { door } }
  let (d, _) := invoke ⟨engine⟩ .start
  return (d.settle,
    warnings schedule ++ .starting door.backend config.location :: d.report)

-- Policy and door are those of the start. Without a schedule to be had, the one before stays in force.
def reload (d : Daemon) (source : ConfigSource) : Daemon × List LogLine :=
  match source.schedule with
  | .error cause => (d, [.reloading, .keepingPrevious cause])
  | .ok schedule =>
    let (d, result) := d.invoke (.request (.replace schedule))
    let outcome := match result with
      | some (.error (.scheduler cause)) => [.notReplaced cause]
      | _ => d.report
    (d.settle, .reloading :: (warnings schedule ++ outcome))

def stop (d : Daemon) (signal : Signal) : Daemon × List LogLine :=
  let (d, _) := d.invoke .stop
  let door := { d.engine.door with door := d.engine.door.door.teardown }
  (⟨{ d.engine with door }⟩, [.shuttingDown signal, .stopped])

def catchUp (d : Daemon) (m : Moment) : Daemon :=
  let engine := d.engine.run ⟨m.instant - d.engine.state.moment.instant⟩
  ⟨(engine.apply (.pass .zero m.clock)).settle none⟩

-- Each signal comes with the configuration that is there by then.
def run (d : Daemon) : List (Signal × ConfigSource) → List LogLine
  | [] => []
  | (.hangup, source) :: rest =>
    let (d, lines) := d.reload source
    lines ++ d.run rest
  | (signal, _) :: _ => (d.stop signal).2

end Daemon

end EntryDoor
