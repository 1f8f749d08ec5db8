import GameRelay.Text.Integer

/-!
# Settings

What can be set from outside: where the relay listens, how it logs, how many messages wait for a
slow client, and how long room codes are. A variable that is absent keeps its default; one that
is set to the empty text does not.
-/

set_option autoImplicit false
set_option relaxedAutoImplicit false

namespace GameRelay

structure Settings where
  host : String
  port : Int
  logLevel : String
  logFile : Option String
  outboxCapacity : Int
  codeLength : Int
  deriving DecidableEq

namespace Settings

def default : Settings where
  host := "0.0.0.0"
  port := 3000
  logLevel := "INFO"
  logFile := none
  outboxCapacity := 256
  codeLength := 6

def integer (lookup : String → Option String) (name : String) (fallback : Int) :
    Except Text.IntegerFault Int :=
  match lookup name with
  | some text => Text.readInteger text
  | none => .ok fallback

/-- The settings that an environment asks for. Of several bad numbers the first one is reported:
the port, then the capacity, then the length. -/
def ofEnvironment (lookup : String → Option String) : Except Text.IntegerFault Settings := do
  let port ← integer lookup "PORT" default.port
  let outboxCapacity ← integer lookup "OUTBOUND_QUEUE_SIZE" default.outboxCapacity
  let codeLength ← integer lookup "ROOM_CODE_LENGTH" default.codeLength
  return {
    host := (lookup "HOST").getD default.host
    port, outboxCapacity, codeLength
    logLevel := (lookup "LOG_LEVEL").getD default.logLevel
    logFile := lookup "LOG_FILE"
  }

def startLine (s : Settings) : String :=
  "Starting netplay relay on " ++ s.host ++ ":" ++ toString s.port

end Settings

end GameRelay
