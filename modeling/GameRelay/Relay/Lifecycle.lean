import GameRelay.Relay.Delivery

/-!
# The life of rooms

A client takes a role once: it hosts a new room under a free code, or takes a seat in a live one.
Every such request gets one answer. When a host's session ends, its room ends; when a member's
session ends, the member leaves.
-/

set_option autoImplicit false
set_option relaxedAutoImplicit false

namespace GameRelay.Relay

/-- The answer to a request for a room that is not live. -/
def roomNotFound : String := "Room not found"

/-- The answer to a second request for a role. -/
def alreadyInRoom : String := "Already in a room"

/-- A code that no live room has. The taken codes that come up first are reported. -/
def generateCode : Action String := do
  let r ← get
  let search := r.codes.search (Table.contains r.rooms)
  search.collisions.forM fun code => report (.codeCollision code)
  modify fun r => { r with codes := search.rest }
  match search.outcome with
  | .found code => return code
  | .failed fault => throw (.source fault)
  | .endless => throw .endlessSearch

/-- Whether a connection already has a role; if so, it is told. -/
def rejectSecondRole (h : Handle) : Action Bool := do
  let c := (← get).peer h
  if c.role = .unassigned then return false
  report (.requestRejected c.id c.role c.room)
  reply h (.error alreadyInRoom)
  return true

def createRoom (h : Handle) : Action (Option Room) := do
  if ← rejectSecondRole h then return none
  let code ← generateCode
  let room := Room.new code h
  modify fun r => r.setRoom code room
  modifyPeer h fun c => { c with role := .host, room := some code }
  reply h (.roomCreated code)
  report (.roomCreated code ((← get).idOf h))
  return some room

/-- The room that a connection asks for, if it may ask and the room is live. -/
def roomForSeat (h : Handle) (requested : Option String) : Action (Option Room) := do
  if ← rejectSecondRole h then return none
  let r ← get
  match r.room? requested with
  | some room => return some room
  | none =>
    report (.unknownRoom (r.idOf h) requested)
    reply h (.error roomNotFound)
    return none

/-- Seats a connection in the room that it asks for. The host hears of players. -/
def takeSeat (seat : Seat) (h : Handle) (requested : Option String) : Action (Option Room) := do
  match ← roomForSeat h requested with
  | none => return none
  | some room =>
    modifyPeer h fun c => { c with role := seat.role, room := some room.code }
    seatMember room.code h
    reply h (.seated seat room.code)
    let id := (← get).idOf h
    if seat = .player then sendToHost room (.playerJoined id)
    report (.seatTaken seat id room.code)
    return (← get).room? room.code

def deleteRoom (code : String) : Action Unit := do
  if Table.contains (← get).rooms code then
    modify fun r => { r with rooms := Table.erase r.rooms code }
    report (.roomDeleted code)

def disconnect (h : Handle) : Action Unit := do
  let r ← get
  let c := r.peer h
  match r.room? c.room with
  | none => return ()
  | some room =>
    if c.role = .host then
      closeMembers room
      deleteRoom room.code
    else
      unseatMember room.code h
      report (.memberLeft c.role c.id room.code)

end GameRelay.Relay
