import GameRelay.Log.Setup
import GameRelay.Settings

/-!
# Starting up

Before anything is served the settings are read, the log is set up, and one line says where the
relay listens. A bad setting stops the start.
-/

set_option autoImplicit false
set_option relaxedAutoImplicit false

namespace GameRelay

inductive StartFault
  | setting (fault : Text.IntegerFault)
  | level (fault : Log.Level.Fault)
  deriving DecidableEq

def StartFault.message : StartFault → String
  | .setting fault => fault.message
  | .level fault => fault.message

structure Startup where
  settings : Settings
  log : Log.Setup

namespace Startup

def prepare (lookup : String → Option String) : Except StartFault Startup :=
  match Settings.ofEnvironment lookup with
  | .error fault => .error (.setting fault)
  | .ok settings =>
    match Log.Setup.configure settings.logLevel settings.logFile with
    | .error fault => .error (.level fault)
    | .ok log => .ok ⟨settings, log⟩

def records (s : Startup) : List Log.Record :=
  [⟨.info, "__main__", s.settings.startLine⟩]

end Startup

end GameRelay
