import GameRelay.Log.Level

/-!
# Where records go

Records from a threshold on are written, each as one line, to the console and to a file if one is
named. Setting up again replaces what was set up before.
-/

set_option autoImplicit false
set_option relaxedAutoImplicit false

namespace GameRelay.Log

inductive Sink
  | console
  | file (path : String)
  deriving DecidableEq

structure Setup where
  threshold : Level
  sinks : List Sink
  deriving DecidableEq

/-- Something to log: which component says what, and how weighty it is. -/
structure Record where
  level : Level
  component : String
  text : String
  deriving DecidableEq

namespace Record

def padRight (width : Nat) (s : String) : String :=
  s ++ String.ofList (List.replicate (width - s.length) ' ')

/-- The line of a record after its time. The component without a name is the root. -/
def line (r : Record) : String :=
  padRight 8 r.level.name ++ " " ++ (if r.component.isEmpty then "root" else r.component) ++
    ": " ++ r.text ++ "\n"

end Record

namespace Setup

/-- Before anything is set up there is no sink. -/
def initial : Setup := ⟨.warning, []⟩

/-- Sets up a named threshold and, when a path that is not empty is given, a file. -/
def configure (level : String) (path : Option String) : Except Level.Fault Setup := do
  let threshold ← Level.ofName level
  let file := match path with
    | some p => if p.isEmpty then [] else [Sink.file p]
    | none => []
  return ⟨threshold, .console :: file⟩

/-- Whether a record is written. Levels below one are never written. -/
def writes (s : Setup) (r : Record) : Bool := 0 < r.level && s.threshold ≤ r.level

/-- What every sink receives of some records, given the text of the time in front of a line. -/
def output (s : Setup) (time : String) (records : List Record) : String :=
  String.join ((records.filter s.writes).map fun r => time ++ " " ++ r.line)

end Setup

end GameRelay.Log
