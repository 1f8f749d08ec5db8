import GameRelay.Relay.Basic

/-!
# Rooms at work

Actions on one live room: seating and unseating, and sending to the host or to the members. A
closed connection is passed over and reported; it stays where it is.
-/

set_option autoImplicit false
set_option relaxedAutoImplicit false

namespace GameRelay.Relay

def liveRoom (code : String) : Action Room := do
  match Table.find? (← get).rooms code with
  | some room => return room
  | none => throw (.noRoom code)

/-- Seats a connection in a live room, in the list that its role belongs to. -/
def seatMember (code : String) (h : Handle) : Action Unit := do
  let room ← liveRoom code
  let c := (← get).peer h
  match room.add? c.role h with
  | some room => modify fun r => r.setRoom code room
  | none => throw (.notAMember c.describe)

def unseatMember (code : String) (h : Handle) : Action Unit := do
  let room ← liveRoom code
  modify fun r => r.setRoom code (room.remove r.idOf h)

def sendToHost (room : Room) (m : Message) : Action Unit := do
  sendOrReport room.host m (.hostSkipped room.code ((← get).idOf room.host))

def sendToMember (code : String) (m : Message) (h : Handle) : Action Unit := do
  sendOrReport h m (.memberSkipped code ((← get).idOf h))

def broadcast (room : Room) (m : Message) : Action Unit :=
  room.members.forM (sendToMember room.code m)

/-- Cuts a member loose: it is in no room any more and is closed. -/
def release (h : Handle) : Action Unit := do
  modifyPeer h fun c => { c with room := none }
  close h

/-- Cuts every member of a room loose. -/
def closeMembers (room : Room) : Action Unit := room.members.forM release

end GameRelay.Relay
