import GameRelay.Connection.Basic
import GameRelay.Text.Quoted

/-!
# Writers

The writer of a connection takes items from the outbox and hands each to the socket: a message as
its text, the close marker as a normal closure, after which the writer is done. A call of the
socket may be accepted, may fail, or may not come back for now. The item in hand is lost when its
call fails, and stays in hand while its call is pending.
-/

set_option autoImplicit false
set_option relaxedAutoImplicit false

namespace GameRelay

inductive SocketFault
  | peerGone
  /-- The socket is not in a state to send. -/
  | notReady (text : String)
  | reset (text : String)
  | unexpected (text : String)
  deriving DecidableEq

namespace SocketFault

/-- Whether a failure is one that a vanished peer causes. A writer stops quietly on those. -/
def isExpected : SocketFault → Bool
  | .unexpected _ => false
  | _ => true

def describe : SocketFault → String
  | .peerGone => "WebSocketDisconnect()"
  | .notReady text => "RuntimeError(" ++ Text.quote text ++ ")"
  | .reset text => "ConnectionResetError(" ++ Text.quote text ++ ")"
  | .unexpected text => "ValueError(" ++ Text.quote text ++ ")"

end SocketFault

/-- What a socket hands on to the client. -/
inductive Transmission
  | accept
  | message (m : Message)
  | close (code : Nat)
  deriving DecidableEq

/-- The status of a normal closure. -/
def normalClosure : Nat := 1000

def Item.transmission : Item → Transmission
  | .message m => .message m
  | .close => .close normalClosure

/-- What becomes of a call of a socket. -/
inductive CallOutcome
  | accepted
  | pending
  | failed (fault : SocketFault)
  deriving DecidableEq

namespace Writer

inductive Ending
  | closed
  | idle
  /-- A call is pending for an item in hand. -/
  | holding (item : Item)
  | failed (fault : SocketFault)
  deriving DecidableEq

/-- What a writer has handed over, how it ended, and what it left in the outbox. -/
structure Run where
  written : List Transmission
  ending : Ending
  left : List Item
  deriving DecidableEq

/-- Runs a writer over waiting items. The calls of the socket are counted from `call` on. -/
def run (socket : Nat → CallOutcome) (call : Nat) : List Item → Run
  | [] => ⟨[], .idle, []⟩
  | item :: rest =>
    match socket call with
    | .failed fault => ⟨[], .failed fault, rest⟩
    | .pending => ⟨[], .holding item, rest⟩
    | .accepted =>
      match item with
      | .close => ⟨[item.transmission], .closed, rest⟩
      | .message _ =>
        let later := run socket (call + 1) rest
        { later with written := item.transmission :: later.written }

/-- A socket that accepts every call, except that one call may fail. -/
def socketFailing (failure : Option (Nat × SocketFault)) (call : Nat) : CallOutcome :=
  match failure with
  | some (n, fault) => if call = n then .failed fault else .accepted
  | none => .accepted

/-- An item in hand comes before the items that wait. -/
def queue (held : Option Item) (waiting : List Item) : List Item := held.toList ++ waiting

theorem run_cons (socket : Nat → CallOutcome) (call : Nat) (item : Item) (rest : List Item) :
    run socket call (item :: rest) =
      match socket call with
      | .failed fault => ⟨[], .failed fault, rest⟩
      | .pending => ⟨[], .holding item, rest⟩
      | .accepted =>
        match item with
        | .close => ⟨[item.transmission], .closed, rest⟩
        | .message _ =>
          let later := run socket (call + 1) rest
          { later with written := item.transmission :: later.written } := rfl

theorem length_left_run_cons_le (socket : Nat → CallOutcome) (call : Nat) (item : Item)
    (rest : List Item) : (run socket call (item :: rest)).left.length ≤ rest.length := by
  induction rest generalizing call item with
  | nil =>
    rw [run_cons]
    split
    · simp
    · simp
    · split <;> simp [run]
  | cons next rest ih =>
    rw [run_cons]
    split
    · simp
    · simp
    · split
      · simp
      · exact Nat.le_succ_of_le (ih (call + 1) next)

theorem length_left_run_queue_le (socket : Nat → CallOutcome) (held : Option Item)
    (waiting : List Item) :
    (run socket 0 (queue held waiting)).left.length ≤ waiting.length := by
  cases held with
  | some item => exact length_left_run_cons_le socket 0 item waiting
  | none =>
    cases waiting with
    | nil => simp [queue, run]
    | cons item rest => exact Nat.le_succ_of_le (length_left_run_cons_le socket 0 item rest)

end Writer

def Outbox.afterRun (o : Outbox) (socket : Nat → CallOutcome) (held : Option Item) : Outbox where
  items := (Writer.run socket 0 (Writer.queue held o.items)).left
  capacity := o.capacity
  dropped := o.dropped
  bounded positive := by
    have := o.bounded positive
    have := Writer.length_left_run_queue_le socket held o.items
    omega

end GameRelay
