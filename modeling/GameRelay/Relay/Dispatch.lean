import GameRelay.Relay.Lifecycle

/-!
# Requests and inputs

A frame is taken as a request and acted on; a frame that is none is reported and otherwise
ignored. The input of a player goes to its host, that of a host to every member of its room, and
all others go nowhere.
-/

set_option autoImplicit false
set_option relaxedAutoImplicit false

namespace GameRelay.Relay

/-- Routes an input by the role of its sender in the room that holds it. -/
def relayInput (h : Handle) (payload : Json.Value) : Action Unit := do
  let r ← get
  let c := r.peer h
  match r.room? c.room with
  | none => report (.inputIgnored c.id)
  | some room =>
    if room.holds r.idOf h then
      match c.role with
      | .player => sendToHost room (.input c.id payload)
      | .host => broadcast room (.state payload)
      | .spectator => report (.spectatorInput c.id room.code)
      | .unassigned => return ()
    else report (.inputIgnored c.id)

/-- Acts on a request. A host's input may come as a state. -/
def perform (h : Handle) : Request → Action Unit
  | .host => do let _ ← createRoom h
  | .seat seat code => do let _ ← takeSeat seat h (some code)
  | .input move state => do
    if ((← get).peer h).role = .host then relayInput h (Request.hostPayload move state)
    else relayInput h (Request.playerPayload move)

def handle (h : Handle) (frame : Frame) : Action Unit := do
  match Request.ofFrame frame with
  | .error _ => report (.malformedFrame ((← get).idOf h) frame)
  | .ok request => perform h request

end GameRelay.Relay
