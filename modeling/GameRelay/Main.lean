import GameRelay.ConnectionId
import GameRelay.Server.Session
import GameRelay.Startup

/-!
# The command

Starts a relay with the settings of the environment and serves clients whose traffic comes over
standard input, a line at a time: `connect NAME`, `frame NAME TEXT` and `leave NAME`. What goes out
to a client is a line with its name in front. Records go where the settings say.
-/

set_option autoImplicit false
set_option relaxedAutoImplicit false

namespace GameRelay.Command

abbrev Names := Table String Handle

def log (setup : Log.Setup) (records : List Log.Record) : IO Unit := do
  let text := setup.output (toString (← IO.monoMsNow)) records
  unless text.isEmpty do
    for sink in setup.sinks do
      match sink with
      | .console => IO.print text
      | .file path => IO.FS.withFile path .append fun file => file.putStr text

def randomDraws (count : Nat) : IO (List (Fin 36)) :=
  (List.range count).mapM fun _ => do
    let n ← IO.rand 0 35
    return Fin.ofNat 36 n

def randomId : IO String := do
  let half := Nat.pow 2 61
  let high ← IO.rand 0 (half - 1)
  let low ← IO.rand 0 (half - 1)
  return ConnectionId.ofBits (high * half + low)

def transmissionLine (names : Names) : Handle × Transmission → String
  | (h, t) =>
    let name := ((List.find? (fun entry => entry.2 = h) names).map (·.1)).getD ""
    match t with
    | .accept => name ++ " accepted"
    | .message m => name ++ " " ++ m.wire
    | .close code => name ++ " closed " ++ toString code

def step (settings : Settings) (names : Names) (s : Server) (line : String) :
    IO (Names × Server) := do
  let known (name : String) : Handle := (Table.find? names name).getD s.nextHandle
  match line.trimAscii.toString.splitOn " " with
  | ["connect", name] =>
    let s' := s.connect (← randomId) settings.outboxCapacity "/"
    return (Table.put names name s.nextHandle, s')
  | "frame" :: name :: words =>
    return (names, s.receive (known name) [.text (" ".intercalate words)])
  | ["leave", name] => return (names, s.hangUp (known name))
  | _ => return (names, s)

/-- Serves lines until the input ends. -/
partial def serve (start : Startup) (names : Names) (s : Server) : IO Unit := do
  let line ← (← IO.getStdin).getLine
  if line.isEmpty then return
  let length := start.settings.codeLength
  let draws ← randomDraws (64 * (RoomCode.places? length).getD 0)
  let relay := { s.relay with codes := .random length draws, journal := [] }
  let s := { s with relay, sent := [] }
  let (names, s) ← step start.settings names s line
  log start.log (s.relay.journal.reverse.map Event.record)
  for t in s.sent.reverse do
    IO.println (transmissionLine names t)
  (← IO.getStdout).flush
  serve start names s

def settingNames : List String :=
  ["HOST", "PORT", "LOG_LEVEL", "LOG_FILE", "OUTBOUND_QUEUE_SIZE", "ROOM_CODE_LENGTH"]

def environment : IO (Table String String) := do
  let entries ← settingNames.mapM fun name => return (← IO.getEnv name).map fun text => (name, text)
  return entries.filterMap id

end GameRelay.Command

open GameRelay in
def main : IO UInt32 := do
  let env ← Command.environment
  match Startup.prepare (Table.find? env) with
  | .error fault =>
    IO.eprintln fault.message
    return 1
  | .ok start =>
    Command.log start.log start.records
    Command.serve start [] (.initial (.listed []))
    return 0
