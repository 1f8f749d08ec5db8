import GameRelay.Server.Client
import GameRelay.Server.Path

/-!
# Sessions

A session begins when a client is let in, takes frames one by one, and ends when the client goes
away or a frame cannot be handled. Frames that have arrived together are all handled before any
writer runs. Writers run in the order in which something came into their empty outboxes. At the
end of a session its own writer is stopped, and what it had in hand is lost.
-/

set_option autoImplicit false
set_option relaxedAutoImplicit false

namespace GameRelay.Server

def isRelayPath (path : String) : Bool := Path.leadsTo "/" path || Path.leadsTo "/ws" path

def connect (s : Server) (id : String) (capacity : Int) (path : String) : Server :=
  let h := s.nextHandle
  if isRelayPath path then
    let s := (s.setClient h .fresh).send h [.accept]
    (s.act do
      Relay.arrive h id capacity
      Relay.report (.clientConnected id)).2
  else (s.setClient h .refused).send h [.close normalClosure]

/-- The connections that an event of a client may reach: its own, its host's and the members' of
its room. -/
def circle (r : Relay) (h : Handle) : List Handle :=
  h :: match r.room? (r.peer h).room with
    | some room => (room.host :: room.members).filter (· ≠ h)
    | none => []

/-- Those whose outboxes were empty and are not any more. -/
def woken (before after : Relay) (among : List Handle) : List Handle :=
  among.filter fun h =>
    (before.peer h).outbox.items.isEmpty && !(after.peer h).outbox.items.isEmpty

/-- Handles frames in turn, up to the first that cannot be handled. Answers who was woken, and
what went wrong. -/
def handleAll (s : Server) (h : Handle) (awake : List Handle) :
    List Frame → Server × List Handle × Option Fault
  | [] => (s, awake, none)
  | frame :: rest =>
    let (result, next) := s.act (Relay.handle h frame)
    let awake := awake ++ woken s.relay next.relay (circle next.relay h)
    match result with
    | .ok () => handleAll next h awake rest
    | .error fault => (next, awake, some fault)

def reportGone (s : Server) (h : Handle) : Server :=
  (s.act (Relay.report (.clientDisconnected (s.relay.idOf h)))).2

/-- Ends the session of a client. As long as its own writer runs, the end waits for it to stop, and
writers that were woken run before the end is reported; otherwise nothing is waited for. -/
def finish (s : Server) (h : Handle) (c : Client) (awake : List Handle) (fault : Option Fault) :
    Server :=
  let others := (circle s.relay h).filter (· ≠ h)
  let (_, next) := s.act do
    Relay.detach h
    Relay.disconnect h
  let awake := awake.filter (· ≠ h) ++ woken s.relay next.relay others
  let next := next.setClient h
    { c with held := none, isWriting := false, hasEnded := true, fault := fault }
  if c.isWriting then (next.settle awake).reportGone h else (next.reportGone h).settle awake

def receive (s : Server) (h : Handle) (frames : List Frame) : Server :=
  match s.live? h with
  | none => s
  | some c =>
    match s.handleAll h [] frames with
    | (s, awake, none) => s.settle awake
    | (s, awake, some fault) => s.finish h c awake (some fault)

def hangUp (s : Server) (h : Handle) : Server :=
  match s.live? h with
  | none => s
  | some c => s.finish h c [] none

def stall (s : Server) (h : Handle) : Server :=
  match s.live? h with
  | none => s
  | some c => s.setClient h { c with isStalled := true }

def resume (s : Server) (h : Handle) : Server :=
  match s.live? h with
  | none => s
  | some c => (s.setClient h { c with isStalled := false }).write h

/-- From now on calls of the socket of a client fail. -/
def breakSocket (s : Server) (h : Handle) : Server :=
  match s.live? h with
  | none => s
  | some c => s.setClient h { c with isBroken := true }

end GameRelay.Server
