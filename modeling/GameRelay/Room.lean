import GameRelay.Connection.Basic

/-!
# Rooms

A room has a code, a host for its whole life, and members: players and spectators in the order in
which they came. Connections are known by handles. Membership is decided by public ids, the host
by its handle.
-/

set_option autoImplicit false
set_option relaxedAutoImplicit false

namespace GameRelay

/-- What the relay knows a connection by: the number of its arrival. -/
abbrev Handle := Nat

structure Room where
  code : String
  host : Handle
  players : List Handle
  spectators : List Handle
  deriving DecidableEq

namespace Room

def new (code : String) (host : Handle) : Room := ⟨code, host, [], []⟩

/-- Everyone but the host, players first. -/
def members (r : Room) : List Handle := r.players ++ r.spectators

/-- Seats a connection. A connection whose role is not that of a member has no seat. -/
def add? (r : Room) (role : Role) (h : Handle) : Option Room :=
  match role with
  | .player => some { r with players := r.players ++ [h] }
  | .spectator => some { r with spectators := r.spectators ++ [h] }
  | _ => none

def remove (r : Room) (ids : Handle → String) (h : Handle) : Room :=
  { r with
    players := r.players.filter fun m => ids m ≠ ids h
    spectators := r.spectators.filter fun m => ids m ≠ ids h }

/-- Whether a connection is the host or has the id of a member. -/
def holds (r : Room) (ids : Handle → String) (h : Handle) : Bool :=
  h = r.host || r.members.any fun m => ids m = ids h

def describe (r : Room) : String :=
  "<Room " ++ r.code ++ " players=" ++ toString r.players.length ++ " spectators=" ++
    toString r.spectators.length ++ ">"

end Room

end GameRelay
