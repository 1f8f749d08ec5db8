import GameRelay.Relay.Dispatch
import GameRelay.Relay.Writing

/-!
# Clients of a server

A server holds a relay and, for each client, the state of its socket and of its writer. A socket
may stall, so that calls do not come back, and may break, so that they fail. Everything that goes
out to clients is kept in order.
-/

set_option autoImplicit false
set_option relaxedAutoImplicit false

namespace GameRelay

structure Client where
  /-- Calls of the socket do not come back for now. -/
  isStalled : Bool
  isBroken : Bool
  /-- The item whose call is pending. -/
  held : Option Item
  isWriting : Bool
  hasEnded : Bool
  /-- What broke the session off. -/
  fault : Option Fault
  deriving DecidableEq

namespace Client

def fresh : Client := ⟨false, false, none, true, false, none⟩

def refused : Client := ⟨false, false, none, false, true, none⟩

/-- What becomes of calls of the socket: a stalled socket is waited for before it can fail. -/
def socket (c : Client) (_call : Nat) : CallOutcome :=
  if c.isStalled then .pending else if c.isBroken then .failed .peerGone else .accepted

def afterRun (c : Client) : Writer.Ending → Client
  | .closed | .failed _ => { c with held := none, isWriting := false }
  | .idle => { c with held := none }
  | .holding item => { c with held := some item }

end Client

structure Server where
  relay : Relay
  clients : Table Handle Client
  /-- What went out, last first. -/
  sent : List (Handle × Transmission)

namespace Server

def initial (codes : CodeSource) : Server := ⟨.initial codes, [], []⟩

def nextHandle (s : Server) : Handle := s.clients.length

/-- A client whose session is not over. -/
def live? (s : Server) (h : Handle) : Option Client :=
  (Table.find? s.clients h).filter fun c => !c.hasEnded

def setClient (s : Server) (h : Handle) (c : Client) : Server :=
  { s with clients := Table.put s.clients h c }

def send (s : Server) (h : Handle) (ts : List Transmission) : Server :=
  { s with sent := (ts.map fun t => (h, t)).reverse ++ s.sent }

def act {α : Type} (s : Server) (action : Action α) : Except Fault α × Server :=
  match action.run s.relay with
  | .ok a relay => (.ok a, { s with relay })
  | .error fault relay => (.error fault, { s with relay })

/-- Lets the writer of a client run until it can do no more. -/
def write (s : Server) (h : Handle) : Server :=
  match s.live? h with
  | none => s
  | some c =>
    if c.isWriting then
      match s.act (Relay.runWriter h c.socket c.held) with
      | (.ok run, s) => (s.setClient h (c.afterRun run.ending)).send h run.written
      | (.error _, s) => s
    else s

def settle (s : Server) (woken : List Handle) : Server := woken.foldl write s

end Server

end GameRelay
