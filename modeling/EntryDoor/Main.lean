import EntryDoor.Daemon.Basic
import Std.Time.DateTime.Timestamp

namespace EntryDoor.Main

def variableNames : List String :=
  ["PORTIER_DOOR_BACKEND", "PORTIER_MQTT_HOST", "PORTIER_MQTT_PORT", "PORTIER_TIMEZONE",
    "PORTIER_LOG", "RUST_LOG"]

def environment : IO Environment :=
  variableNames.filterMapM fun key => do
    return (← IO.getEnv key).map fun value => (key, value)

def configFile : IO ConfigFile := do
  let path := (← IO.getEnv "PORTIER_CONFIG").getD "portier.toml"
  try
    return .ofBytes (← IO.FS.readBinFile path)
  catch
    | .noFileOrDirectory .. => return .missing
    | _ => return .unreadable

def source : IO ConfigSource := do
  return ⟨← configFile, ← environment⟩

def now : IO Moment := do
  let clock ← Std.Time.Timestamp.now
  return ⟨← IO.monoNanosNow, .ofNanos clock.toNanosecondsSinceUnixEpoch.val⟩

def log (lines : List LogLine) : IO Unit := do
  let m ← now
  let output ← IO.getStdout
  for line in lines do
    output.putStrLn (toString m.clock ++ " " ++ line.text {})
  output.flush

def signal? (line : String) : Option Signal :=
  match line.trimAscii.toString with
  | "HUP" => some .hangup
  | "TERM" => some .terminate
  | "INT" => some .interrupt
  | _ => none

-- Signals come by their names from standard input, one a line.
partial def listen (input : IO.FS.Stream) (inbox : IO.Ref (List Signal)) : IO Unit := do
  let line ← input.getLine
  if line.isEmpty then return
  inbox.modify (· ++ (signal? line).toList)
  listen input inbox

partial def serve (daemon : Daemon) (inbox : IO.Ref (List Signal)) : IO Unit := do
  let daemon := daemon.catchUp (← now)
  match ← inbox.modifyGet fun signals => (signals.head?, signals.tail) with
  | none =>
    IO.sleep 20
    serve daemon inbox
  | some .hangup =>
    let (daemon, lines) := daemon.reload (← source)
    log lines
    serve daemon inbox
  | some signal => log (daemon.stop signal).2

def run : IO UInt32 := do
  match Daemon.start (← source) (← now) with
  | .error e =>
    IO.eprintln e.report
    return 1
  | .ok (daemon, lines) =>
    log lines
    let inbox ← IO.mkRef []
    let _ ← IO.asTask (listen (← IO.getStdin) inbox)
    serve daemon inbox
    return 0

end EntryDoor.Main

def main : IO UInt32 :=
  EntryDoor.Main.run
