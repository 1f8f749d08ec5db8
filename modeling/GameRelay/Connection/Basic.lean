import GameRelay.Connection.Outbox

/-!
# Connections

What the relay knows of one client: its public id, the role it has taken, the code of its room,
whether messages can still be sent to it, and its outbox.
-/

set_option autoImplicit false
set_option relaxedAutoImplicit false

namespace GameRelay

/-- The part that a client plays. It is taken once. -/
inductive Role
  | unassigned
  | host
  | player
  | spectator
  deriving DecidableEq

def Role.name : Role → String
  | .unassigned => "unassigned"
  | .host => "host"
  | .player => "player"
  | .spectator => "spectator"

def Role.title : Role → String
  | .unassigned => "Unassigned"
  | .host => "Host"
  | .player => "Player"
  | .spectator => "Spectator"

def Seat.role : Seat → Role
  | .player => .player
  | .spectator => .spectator

structure Connection where
  id : String
  role : Role
  room : Option String
  isOpen : Bool
  outbox : Outbox
  deriving DecidableEq

def roomName : Option String → String
  | some code => code
  | none => "None"

namespace Connection

def new (id : String) (capacity : Int) : Connection :=
  ⟨id, .unassigned, none, true, .empty capacity⟩

def describe (c : Connection) : String :=
  "<Connection " ++ c.id ++ " role=" ++ c.role.name ++ " room=" ++ roomName c.room ++ ">"

end Connection

end GameRelay
