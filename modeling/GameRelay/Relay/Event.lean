import GameRelay.Connection.Writer
import GameRelay.Log.Setup

/-!
# Events

What the relay reports while it works. An event knows its level, the component that reports it
and its text. Whatever a client chose freely stands between quotes in the text. What the validator
has to say about a malformed frame is left out.
-/

set_option autoImplicit false
set_option relaxedAutoImplicit false

namespace GameRelay

inductive Event
  | codeCollision (code : String)
  | malformedFrame (id : String) (frame : Frame)
  | requestRejected (id : String) (role : Role) (room : Option String)
  | roomCreated (code id : String)
  | seatTaken (seat : Seat) (id code : String)
  | unknownRoom (id : String) (requested : Option String)
  | roomDeleted (code : String)
  | inputIgnored (id : String)
  | spectatorInput (id code : String)
  | memberLeft (role : Role) (id code : String)
  | replyDropped (id : String)
  | hostSkipped (code id : String)
  | memberSkipped (code id : String)
  | itemDropped (id : String) (total : Nat)
  | writerStopped (id : String) (fault : SocketFault)
  | clientConnected (id : String)
  | clientDisconnected (id : String)
  deriving DecidableEq

def Frame.quote : Frame → String
  | .text s => Text.quote s
  | .binary bytes => Text.quoteBytes bytes.toList

def quoteRequested : Option String → String
  | some code => Text.quote code
  | none => "None"

namespace Event

def level : Event → Log.Level
  | .malformedFrame .. | .itemDropped .. => .warning
  | .codeCollision _ | .inputIgnored _ | .spectatorInput .. | .replyDropped _ | .hostSkipped ..
  | .memberSkipped .. | .writerStopped .. => .debug
  | _ => .info

def component : Event → String
  | .hostSkipped .. | .memberSkipped .. => "netplay_relay.room"
  | .itemDropped .. | .writerStopped .. => "netplay_relay.connection"
  | .clientConnected _ | .clientDisconnected _ => "netplay_relay.routers.websockets"
  | _ => "netplay_relay.registry"

/-- The text of an event. That of a malformed frame ends with the quoted frame: the account of the
validator, which follows it in parentheses, is left out. -/
def text : Event → String
  | .codeCollision code => "Room code " ++ code ++ " already in use, regenerating"
  | .malformedFrame id frame =>
    "Ignoring malformed message from " ++ id ++ ": " ++ frame.quote
  | .requestRejected id role room =>
    "Connection " ++ id ++ " is already " ++ role.name ++ " in room " ++ roomName room ++
      ", request rejected"
  | .roomCreated code id => "Room " ++ code ++ " created by host " ++ id
  | .seatTaken .player id code => "Player " ++ id ++ " joined room " ++ code
  | .seatTaken .spectator id code => "Spectator " ++ id ++ " joined room " ++ code
  | .unknownRoom id requested =>
    "Connection " ++ id ++ " asked for unknown room " ++ quoteRequested requested
  | .roomDeleted code => "Room " ++ code ++ " deleted"
  | .inputIgnored id => "Input from " ++ id ++ " outside any room ignored"
  | .spectatorInput id code => "Spectator " ++ id ++ " in room " ++ code ++ " cannot send input"
  | .memberLeft role id code => role.title ++ " " ++ id ++ " left room " ++ code
  | .replyDropped id => "Reply to closed connection " ++ id ++ " dropped"
  | .hostSkipped code id => "Room " ++ code ++ ": host " ++ id ++ " is closed, message skipped"
  | .memberSkipped code id => "Room " ++ code ++ ": skipped closed member " ++ id
  | .itemDropped id total =>
    "Outbound queue full for " ++ id ++ ", dropped oldest message (" ++ toString total ++ " total)"
  | .writerStopped id fault => "Writer for " ++ id ++ " stopped: " ++ fault.describe
  | .clientConnected id => "Client " ++ id ++ " connected"
  | .clientDisconnected id => "Client " ++ id ++ " disconnected"

def record (e : Event) : Log.Record := ⟨e.level, e.component, e.text⟩

end Event

end GameRelay
