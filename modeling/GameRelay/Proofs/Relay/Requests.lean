import GameRelay.Proofs.Relay.Effects
import GameRelay.Relay.Dispatch

/-!
# What requests do

Each request of a client, and the end of its session, as a function on states: one state for each
way in which it can go. A request for a role goes wrong in two ways that the client is told of, and
in one, a source without a free code, that it is not told of.
-/

set_option autoImplicit false
set_option relaxedAutoImplicit false

namespace GameRelay

namespace Room

/-- A room with one more member, at the end of the list of its seat. -/
def admitted (room : Room) (seat : Seat) (h : Handle) : Room :=
  match seat with
  | .player => { room with players := room.players ++ [h] }
  | .spectator => { room with spectators := room.spectators ++ [h] }

private theorem add?_role (room : Room) (seat : Seat) (h : Handle) :
    room.add? seat.role h = some (room.admitted seat h) := by
  cases seat <;> rfl

@[simp] theorem code_admitted (room : Room) (seat : Seat) (h : Handle) :
    (room.admitted seat h).code = room.code := by
  cases seat <;> rfl

@[simp] theorem host_admitted (room : Room) (seat : Seat) (h : Handle) :
    (room.admitted seat h).host = room.host := by
  cases seat <;> rfl

theorem mem_members_admitted (room : Room) (seat : Seat) (h k : Handle) :
    k ∈ (room.admitted seat h).members ↔ k ∈ room.members ∨ k = h := by
  cases seat with
  | player =>
    simp only [admitted, members, List.mem_append, List.mem_singleton]
    tauto
  | spectator => simp [admitted, members, or_assoc]

theorem holds_of_mem {room : Room} {h : Handle} (ids : Handle → String)
    (inside : h ∈ room.host :: room.members) : room.holds ids h := by
  simp only [holds, Bool.or_eq_true, decide_eq_true_eq, List.any_eq_true]
  rcases List.mem_cons.mp inside with host | member
  · exact .inl host
  · exact .inr ⟨h, member, rfl⟩

end Room

theorem CodeSource.free_of_search {taken : String → Bool} {source : CodeSource} {code : String}
    (found : (source.search taken).outcome = .found code) : taken code = false := by
  fun_induction source.search taken with
  | case1 => cases found
  | case2 source first rest next isTaken shorter later ih => exact ih found
  | case3 => cases found
  | case4 source first rest next isFree =>
    cases found
    simpa using isFree

namespace Relay

def rejected (r : Relay) (h : Handle) : Relay :=
  (r.noted (.requestRejected (r.peer h).id (r.peer h).role (r.peer h).room)).offered h
    (.error alreadyInRoom) (.replyDropped (r.idOf h))

theorem run_rejectSecondRole (r : Relay) (h : Handle) :
    (rejectSecondRole h).run r =
      if (r.peer h).role = .unassigned then .ok false r else .ok true (r.rejected h) := by
  unfold rejectSecondRole rejected
  simp only [EStateM.run_bind, EStateM.run_get]
  split
  · rfl
  · simp only [EStateM.run_bind, run_report, run_reply, EStateM.run_pure]
    rfl

theorem peer_rejected (r : Relay) (h k : Handle) :
    (r.rejected h).peer k =
      if k = h then (r.peer h).offered (.error alreadyInRoom) else r.peer k :=
  peer_offered _ h k _ _

@[simp] theorem rooms_rejected (r : Relay) (h : Handle) : (r.rejected h).rooms = r.rooms := by
  simp [rejected]

@[simp] theorem codes_rejected (r : Relay) (h : Handle) : (r.rejected h).codes = r.codes := by
  simp [rejected]

theorem known_rejected (r : Relay) {h : Handle} (member : h ∈ r.known) :
    (r.rejected h).known = r.known :=
  known_offered (r.noted _) _ _ member

/-- The search for a free code that a relay would make now. -/
def codeSearch (r : Relay) : CodeSource.Search := r.codes.search (Table.contains r.rooms)

/-- The state after a search for a free code, whatever came of it. -/
def searched (r : Relay) : Relay :=
  { r with
    codes := r.codeSearch.rest
    journal := (r.codeSearch.collisions.map Event.codeCollision).reverse ++ r.journal }

theorem free_of_codeSearch {r : Relay} {code : String}
    (found : r.codeSearch.outcome = .found code) : Table.find? r.rooms code = none := by
  have free := CodeSource.free_of_search found
  rwa [Table.contains, Option.isSome_eq_false_iff, Option.isNone_iff_eq_none] at free

@[simp] theorem peer_searched (r : Relay) (k : Handle) : r.searched.peer k = r.peer k := rfl

@[simp] theorem rooms_searched (r : Relay) : r.searched.rooms = r.rooms := rfl

@[simp] theorem codes_searched (r : Relay) : r.searched.codes = r.codeSearch.rest := rfl

@[simp] theorem known_searched (r : Relay) : r.searched.known = r.known := rfl

def opened (r : Relay) (h : Handle) (code : String) : Relay :=
  (((r.setRoom code (.new code h)).setPeer h
    { r.peer h with role := .host, room := some code }).offered h (.roomCreated code)
      (.replyDropped (r.idOf h))).noted (.roomCreated code (r.idOf h))

private theorem run_report_collisions (codes : List String) (r : Relay) :
    (codes.forM fun code => report (.codeCollision code)).run r =
      .ok () { r with journal := (codes.map Event.codeCollision).reverse ++ r.journal } := by
  induction codes generalizing r with
  | nil => rfl
  | cons code rest ih =>
    change (report (.codeCollision code) >>= fun _ =>
      rest.forM fun code => report (.codeCollision code)).run r = _
    rw [EStateM.run_bind, run_report]
    simp only [ih, noted, List.map_cons, List.reverse_cons, List.append_assoc,
      List.singleton_append]

theorem run_generateCode (r : Relay) :
    generateCode.run r =
      match r.codeSearch.outcome with
      | .found code => .ok code r.searched
      | .failed fault => .error (.source fault) r.searched
      | .endless => .error .endlessSearch r.searched := by
  have steps : generateCode.run r =
      (match r.codeSearch.outcome with
      | .found code => return code
      | .failed fault => throw (.source fault)
      | .endless => throw .endlessSearch : Action String).run r.searched := by
    unfold generateCode
    simp only [EStateM.run_bind, EStateM.run_get, run_report_collisions, EStateM.run_modify]
    rfl
  rw [steps]
  split <;> rfl

theorem run_createRoom_of_assigned {r : Relay} {h : Handle}
    (role : (r.peer h).role ≠ .unassigned) :
    (createRoom h).run r = .ok none (r.rejected h) := by
  simp only [createRoom, EStateM.run_bind, run_rejectSecondRole, role, if_false, if_true,
    EStateM.run_pure]

theorem run_createRoom {r : Relay} {h : Handle} (role : (r.peer h).role = .unassigned) :
    (createRoom h).run r =
      match r.codeSearch.outcome with
      | .found code => .ok (some (.new code h)) (r.searched.opened h code)
      | .failed fault => .error (.source fault) r.searched
      | .endless => .error .endlessSearch r.searched := by
  unfold createRoom
  simp only [EStateM.run_bind, run_rejectSecondRole, role, if_true, Bool.false_eq_true, if_false,
    run_generateCode]
  cases r.codeSearch.outcome with
  | found code =>
    simp only [EStateM.run_modify, run_modifyPeer, run_reply, EStateM.run_get, run_report,
      EStateM.run_pure]
    simp [opened, idOf, peer_offered]
  | failed fault => rfl
  | endless => rfl

theorem peer_opened (r : Relay) (h k : Handle) (code : String) :
    (r.opened h code).peer k =
      if k = h then { r.peer h with role := .host, room := some code }.offered (.roomCreated code)
      else r.peer k := by
  simp only [opened, peer_noted, peer_offered, peer_setPeer_self]
  split
  · rfl
  · exact peer_setPeer_of_ne _ _ ‹_›

@[simp] theorem rooms_opened (r : Relay) (h : Handle) (code : String) :
    (r.opened h code).rooms = Table.put r.rooms code (.new code h) := by
  simp [opened]

theorem rooms_opened_of_free {r : Relay} (h : Handle) {code : String}
    (free : Table.find? r.rooms code = none) :
    (r.opened h code).rooms = r.rooms ++ [(code, .new code h)] := by
  rw [rooms_opened]
  exact Table.put_of_not_mem _ ((Table.find?_eq_none_iff _ _).mp free)

@[simp] theorem codes_opened (r : Relay) (h : Handle) (code : String) :
    (r.opened h code).codes = r.codes := by
  simp [opened]

theorem known_opened (r : Relay) {h : Handle} (code : String) (member : h ∈ r.known) :
    (r.opened h code).known = r.known := by
  have kept := known_setPeer (r.setRoom code (.new code h))
    { r.peer h with role := .host, room := some code } member
  rw [opened, known_noted, known_offered _ _ _ (by rwa [kept]), kept, known_setRoom]

def refused (r : Relay) (h : Handle) (requested : Option String) : Relay :=
  (r.noted (.unknownRoom (r.idOf h) requested)).offered h (.error roomNotFound)
    (.replyDropped (r.idOf h))

theorem peer_refused (r : Relay) (h k : Handle) (requested : Option String) :
    (r.refused h requested).peer k =
      if k = h then (r.peer h).offered (.error roomNotFound) else r.peer k :=
  peer_offered _ h k _ _

@[simp] theorem rooms_refused (r : Relay) (h : Handle) (requested : Option String) :
    (r.refused h requested).rooms = r.rooms := by
  simp [refused]

@[simp] theorem codes_refused (r : Relay) (h : Handle) (requested : Option String) :
    (r.refused h requested).codes = r.codes := by
  simp [refused]

theorem known_refused (r : Relay) {h : Handle} (requested : Option String)
    (member : h ∈ r.known) : (r.refused h requested).known = r.known :=
  known_offered (r.noted _) _ _ member

/-- The state after the host of a room was told of a new member, if it is a player. -/
def announced (r : Relay) (seat : Seat) (h : Handle) (room : Room) : Relay :=
  match seat with
  | .player => r.offered room.host (.playerJoined (r.idOf h))
      (.hostSkipped room.code (r.idOf room.host))
  | .spectator => r

def seated (r : Relay) (seat : Seat) (h : Handle) (room : Room) : Relay :=
  ((((r.setPeer h { r.peer h with role := seat.role, room := some room.code }).setRoom room.code
    (room.admitted seat h)).offered h (.seated seat room.code)
      (.replyDropped (r.idOf h))).announced seat h room).noted
        (.seatTaken seat (r.idOf h) room.code)

theorem run_takeSeat_of_assigned {r : Relay} {h : Handle} (seat : Seat)
    (requested : Option String) (role : (r.peer h).role ≠ .unassigned) :
    (takeSeat seat h requested).run r = .ok none (r.rejected h) := by
  simp only [takeSeat, roomForSeat, EStateM.run_bind, run_rejectSecondRole, role, if_false,
    if_true, EStateM.run_pure]

theorem run_takeSeat_of_unknown {r : Relay} {h : Handle} (seat : Seat)
    {requested : Option String} (role : (r.peer h).role = .unassigned)
    (unknown : r.room? requested = none) :
    (takeSeat seat h requested).run r = .ok none (r.refused h requested) := by
  simp only [takeSeat, roomForSeat, EStateM.run_bind, run_rejectSecondRole, role, if_true,
    Bool.false_eq_true, if_false, EStateM.run_get, unknown, run_report, run_reply, EStateM.run_pure]
  rfl

theorem run_takeSeat {r : Relay} {h : Handle} {seat : Seat} {requested : Option String}
    {room : Room} (role : (r.peer h).role = .unassigned) (live : r.room? requested = some room)
    (own : Table.find? r.rooms room.code = some room) :
    (takeSeat seat h requested).run r =
      .ok (some (room.admitted seat h)) (r.seated seat h room) := by
  simp only [takeSeat, roomForSeat, EStateM.run_bind, run_rejectSecondRole, role, if_true,
    Bool.false_eq_true, if_false, EStateM.run_get, live, EStateM.run_pure, run_modifyPeer,
    seatMember, liveRoom, rooms_setPeer, own, peer_setPeer_self, Room.add?_role, EStateM.run_modify,
    run_reply]
  cases seat with
  | player => simp [-bind_pure_comp, seated, announced, idOf, peer_offered, room?]
  | spectator => simp [-bind_pure_comp, seated, announced, idOf, peer_offered, room?]

private theorem peer_announced (r : Relay) (seat : Seat) (h : Handle) (room : Room) (k : Handle) :
    (r.announced seat h room).peer k =
      if seat = .player ∧ k = room.host then (r.peer k).offered (.playerJoined (r.idOf h))
      else r.peer k := by
  cases seat with
  | player =>
    simp only [announced, peer_offered, true_and]
    split
    · simp [*]
    · rfl
  | spectator => simp [announced]

@[simp] theorem rooms_announced (r : Relay) (seat : Seat) (h : Handle) (room : Room) :
    (r.announced seat h room).rooms = r.rooms := by
  cases seat <;> simp [announced]

@[simp] theorem codes_announced (r : Relay) (seat : Seat) (h : Handle) (room : Room) :
    (r.announced seat h room).codes = r.codes := by
  cases seat <;> simp [announced]

private theorem known_announced (r : Relay) (seat : Seat) (h : Handle) {room : Room}
    (member : room.host ∈ r.known) : (r.announced seat h room).known = r.known := by
  cases seat with
  | player => exact known_offered r _ _ member
  | spectator => rfl

/-- A connection that takes a seat is answered; the host, if it is another connection, may hear of
it; nobody else is touched. -/
theorem peer_seated (r : Relay) (seat : Seat) {h : Handle} {room : Room} (ne : room.host ≠ h)
    (k : Handle) :
    (r.seated seat h room).peer k =
      if k = h then
        { r.peer h with role := seat.role, room := some room.code }.offered (.seated seat room.code)
      else if seat = .player ∧ k = room.host then (r.peer k).offered (.playerJoined (r.idOf h))
      else r.peer k := by
  simp only [seated, peer_noted, peer_announced, peer_offered, peer_setRoom, peer_setPeer, idOf,
    if_true, Connection.id_offered]
  by_cases self : k = h
  · subst self
    simp [Ne.symm ne]
  · simp [self]

@[simp] theorem rooms_seated (r : Relay) (seat : Seat) (h : Handle) (room : Room) :
    (r.seated seat h room).rooms = Table.put r.rooms room.code (room.admitted seat h) := by
  simp [seated]

@[simp] theorem codes_seated (r : Relay) (seat : Seat) (h : Handle) (room : Room) :
    (r.seated seat h room).codes = r.codes := by
  simp [seated]

theorem known_seated (r : Relay) (seat : Seat) {h : Handle} {room : Room} (member : h ∈ r.known)
    (hostMember : room.host ∈ r.known) : (r.seated seat h room).known = r.known := by
  have kept := known_setPeer r { r.peer h with role := seat.role, room := some room.code } member
  have answered :
      (((r.setPeer h { r.peer h with role := seat.role, room := some room.code }).setRoom room.code
        (room.admitted seat h)).offered h (.seated seat room.code)
          (.replyDropped (r.idOf h))).known = r.known := by
    rw [known_offered _ _ _ (by rwa [known_setRoom, kept]), known_setRoom, kept]
  rw [seated, known_noted, known_announced _ _ _ (by rwa [answered]), answered]

def ended (r : Relay) (room : Room) : Relay :=
  ({ r.emptied room with rooms := Table.erase (r.emptied room).rooms room.code }).noted
    (.roomDeleted room.code)

def left (r : Relay) (h : Handle) (room : Room) : Relay :=
  (r.setRoom room.code (room.remove r.idOf h)).noted
    (.memberLeft (r.peer h).role (r.peer h).id room.code)

theorem run_deleteRoom {r : Relay} {code : String} {room : Room}
    (live : Table.find? r.rooms code = some room) :
    (deleteRoom code).run r =
      .ok () ({ r with rooms := Table.erase r.rooms code }.noted (.roomDeleted code)) := by
  simp [deleteRoom, Table.contains, live, noted]

theorem run_disconnect_of_homeless {r : Relay} {h : Handle}
    (homeless : r.room? (r.peer h).room = none) : (disconnect h).run r = .ok () r := by
  simp [disconnect, homeless]

theorem run_disconnect_of_host {r : Relay} {h : Handle} {room : Room}
    (role : (r.peer h).role = .host) (live : r.room? (r.peer h).room = some room)
    (own : Table.find? r.rooms room.code = some room) :
    (disconnect h).run r = .ok () (r.ended room) := by
  have gone : (deleteRoom room.code).run (r.emptied room) = .ok () (r.ended room) :=
    run_deleteRoom (by rwa [rooms_emptied])
  simp only [disconnect, EStateM.run_bind, EStateM.run_get, live, role, if_true, run_closeMembers,
    gone]

theorem run_disconnect_of_member {r : Relay} {h : Handle} {room : Room}
    (role : (r.peer h).role ≠ .host) (live : r.room? (r.peer h).room = some room)
    (own : Table.find? r.rooms room.code = some room) :
    (disconnect h).run r = .ok () (r.left h room) := by
  simp only [disconnect, EStateM.run_bind, EStateM.run_get, live, role, if_false, unseatMember,
    liveRoom, own, EStateM.run_pure, EStateM.run_modify, run_report]
  rfl

theorem peer_ended (r : Relay) {room : Room} (apart : room.members.Nodup) (k : Handle) :
    (r.ended room).peer k = if k ∈ room.members then (r.peer k).released else r.peer k :=
  peer_emptied r apart k

@[simp] theorem rooms_ended (r : Relay) (room : Room) :
    (r.ended room).rooms = Table.erase r.rooms room.code := by
  simp [ended]

@[simp] theorem codes_ended (r : Relay) (room : Room) : (r.ended room).codes = r.codes :=
  codes_emptied r room

theorem known_ended {r : Relay} {room : Room} (members : ∀ h ∈ room.members, h ∈ r.known) :
    (r.ended room).known = r.known :=
  known_emptied members

@[simp] theorem peer_left (r : Relay) (h : Handle) (room : Room) (k : Handle) :
    (r.left h room).peer k = r.peer k := rfl

@[simp] theorem rooms_left (r : Relay) (h : Handle) (room : Room) :
    (r.left h room).rooms = Table.put r.rooms room.code (room.remove r.idOf h) := rfl

@[simp] theorem codes_left (r : Relay) (h : Handle) (room : Room) :
    (r.left h room).codes = r.codes := rfl

@[simp] theorem known_left (r : Relay) (h : Handle) (room : Room) :
    (r.left h room).known = r.known := rfl

/-- The state after an input was routed by the role of its sender. -/
def routed (r : Relay) (h : Handle) (payload : Json.Value) : Relay :=
  match r.room? (r.peer h).room with
  | none => r.noted (.inputIgnored (r.idOf h))
  | some room =>
    if room.holds r.idOf h then
      match (r.peer h).role with
      | .player => r.offered room.host (.input (r.idOf h) payload)
          (.hostSkipped room.code (r.idOf room.host))
      | .host => r.broadcasted room (.state payload)
      | .spectator => r.noted (.spectatorInput (r.idOf h) room.code)
      | .unassigned => r
    else r.noted (.inputIgnored (r.idOf h))

theorem routed_of_inside {r : Relay} {h : Handle} {room : Room}
    (found : r.room? (r.peer h).room = some room) (inside : h ∈ room.host :: room.members)
    (payload : Json.Value) :
    r.routed h payload =
      match (r.peer h).role with
      | .player => r.offered room.host (.input (r.idOf h) payload)
          (.hostSkipped room.code (r.idOf room.host))
      | .host => r.broadcasted room (.state payload)
      | .spectator => r.noted (.spectatorInput (r.idOf h) room.code)
      | .unassigned => r := by
  rw [routed, found]
  exact if_pos (Room.holds_of_mem r.idOf inside)

theorem run_relayInput (r : Relay) (h : Handle) (payload : Json.Value) :
    (relayInput h payload).run r = .ok () (r.routed h payload) := by
  simp only [relayInput, routed, EStateM.run_bind, EStateM.run_get]
  cases r.room? (r.peer h).room with
  | none => rfl
  | some room =>
    by_cases held : room.holds r.idOf h
    · simp only [held, if_true]
      cases (r.peer h).role with
      | player => exact run_sendToHost r room _
      | host => exact run_broadcast r room _
      | spectator => rfl
      | unassigned => rfl
    · simp only [held, Bool.false_eq_true, if_false]
      rfl

end Relay

end GameRelay
