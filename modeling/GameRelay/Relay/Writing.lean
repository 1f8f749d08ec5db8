import GameRelay.Relay.Basic

/-!
# Writing out

The writer of a connection runs until its socket is closed, its outbox is empty, a call is
pending or a call fails. A failure that a vanished peer causes closes the connection.
-/

set_option autoImplicit false
set_option relaxedAutoImplicit false

namespace GameRelay.Relay

/-- Runs the writer of a connection on a socket, with an item that it may have in hand. -/
def runWriter (h : Handle) (socket : Nat → CallOutcome) (held : Option Item) :
    Action Writer.Run := do
  let c := (← get).peer h
  let run := Writer.run socket 0 (Writer.queue held c.outbox.items)
  modifyPeer h fun c => { c with outbox := c.outbox.afterRun socket held }
  match run.ending with
  | .failed fault =>
    if fault.isExpected then
      report (.writerStopped c.id fault)
      modifyPeer h fun c => { c with isOpen := false }
  | _ => pure ()
  return run

end GameRelay.Relay
