import GameRelay.Relay.Event
import GameRelay.Room
import GameRelay.RoomCode

/-!
# The relay

The state of a relay: the connections it knows, the live rooms by code, the source of new codes,
and the journal of what it reported. Operations are actions on this state. An action that fails
keeps what it changed before it failed.
-/

set_option autoImplicit false
set_option relaxedAutoImplicit false

namespace GameRelay

structure Relay where
  peers : Table Handle Connection
  rooms : Table String Room
  codes : CodeSource
  /-- What was reported, last first. -/
  journal : List Event
  deriving DecidableEq

inductive Fault
  | channelClosed (id : String)
  /-- An outbox was full or empty at the wrong time. -/
  | outbox (fault : OutboxFault)
  /-- Somebody without the role of a member was to be seated. -/
  | notAMember (connection : String)
  | noRoom (code : String)
  | source (fault : SourceFault)
  /-- The source of codes gives the same taken code for ever. -/
  | endlessSearch
  deriving DecidableEq

def Fault.message : Fault → String
  | .channelClosed id => "Connection " ++ id ++ " is closed"
  | .outbox .full => "outbox full"
  | .outbox .empty => "outbox empty"
  | .notAMember connection => "Cannot add " ++ connection ++ " as a room member"
  | .noRoom code => "no room " ++ code
  | .source fault => fault.message
  | .endlessSearch => "every code of the source is taken"

abbrev Action := EStateM Fault Relay

namespace Relay

def initial (codes : CodeSource) : Relay := ⟨[], [], codes, []⟩

/-- The capacity of an outbox when nothing else is said. -/
def defaultCapacity : Int := 256

/-- A connection; a handle that is not known stands for a new connection without an id. -/
def peer (r : Relay) (h : Handle) : Connection :=
  (Table.find? r.peers h).getD (.new "" defaultCapacity)

def idOf (r : Relay) (h : Handle) : String := (r.peer h).id

/-- The live room under a code; there is none under no code. -/
def room? (r : Relay) : Option String → Option Room
  | some code => Table.find? r.rooms code
  | none => none

def setPeer (r : Relay) (h : Handle) (c : Connection) : Relay :=
  { r with peers := Table.put r.peers h c }

def setRoom (r : Relay) (code : String) (room : Room) : Relay :=
  { r with rooms := Table.put r.rooms code room }

@[simp] theorem peer_setPeer_self (r : Relay) (h : Handle) (c : Connection) :
    (r.setPeer h c).peer h = c := by
  simp [peer, setPeer]

theorem peer_setPeer_of_ne (r : Relay) {h other : Handle} (c : Connection) (ne : other ≠ h) :
    (r.setPeer h c).peer other = r.peer other := by
  simp [peer, setPeer, Table.find?_put_of_ne _ _ ne]

def report (e : Event) : Action Unit :=
  modify fun r => { r with journal := e :: r.journal }

def modifyPeer (h : Handle) (f : Connection → Connection) : Action Unit :=
  modify fun r => r.setPeer h (f (r.peer h))

def arrive (h : Handle) (id : String) (capacity : Int) : Action Unit :=
  modify fun r => r.setPeer h (.new id capacity)

def enqueue (h : Handle) (item : Item) : Action Unit := do
  let c := (← get).peer h
  match c.outbox.enqueue item with
  | .error fault => throw (.outbox fault)
  | .ok outbox =>
    modifyPeer h fun c => { c with outbox }
    if c.outbox.isFull then report (.itemDropped c.id outbox.dropped)

def send (h : Handle) (m : Message) : Action Unit := do
  let c := (← get).peer h
  if c.isOpen then enqueue h (.message m) else throw (.channelClosed c.id)

/-- Closes a connection from this side: what waits is still sent, then the socket is closed.
A connection that is not open stays as it is. -/
def close (h : Handle) : Action Unit := do
  if ((← get).peer h).isOpen then
    modifyPeer h fun c => { c with isOpen := false }
    enqueue h .close

/-- Notes that the peer has gone away: nothing that waits will be sent. -/
def detach (h : Handle) : Action Unit :=
  modifyPeer h fun c => { c with isOpen := false }

/-- Sends a message; when the connection is closed, reports that instead. -/
def sendOrReport (h : Handle) (m : Message) (e : Event) : Action Unit :=
  tryCatch (send h m) fun
    | .channelClosed _ => report e
    | fault => throw fault

def reply (h : Handle) (m : Message) : Action Unit := do
  sendOrReport h m (.replyDropped ((← get).idOf h))

/-- Takes every waiting message out of an outbox. -/
def drain (h : Handle) : Action (List Message) := do
  let c := (← get).peer h
  modifyPeer h fun c => { c with outbox := c.outbox.clear }
  return c.outbox.items.filterMap Item.message?

end Relay

end GameRelay
