import GameRelay.Proofs.RoomCode
import GameRelay.Proofs.Relay.Differences

/-!
# What the end of a session does

Behind the endpoint, the end of a session does one of three things. A host takes its room with it:
the room is gone, its code is free, and every member is cut loose from it and closed. A member
leaves the list that it is in. Whoever is in no room leaves everything as it is.
-/

set_option autoImplicit false
set_option relaxedAutoImplicit false

namespace GameRelay

/-- A connection was cut loose from its room: it is in none any more and is not open. The close
marker came into its outbox if it was open, otherwise its outbox is as it was. -/
structure Connection.CutLoose (c next : Connection) : Prop where
  id : next.id = c.id
  role : next.role = c.role
  room : next.room = none
  isOpen : next.isOpen = false
  marked : c.isOpen → c.outbox.Gains next.outbox .close
  unmarked : c.isOpen = false → next.outbox = c.outbox

private theorem Connection.cutLoose_released (c : Connection) : c.CutLoose c.released where
  id := c.id_released
  role := congrArg Prod.fst c.standing_released
  room := c.room_released
  isOpen := c.isOpen_released
  marked isOpen := by
    have outbox : c.released.outbox = c.outbox.push .close := outbox_closed_of_open isOpen
    rw [outbox]
    exact c.outbox.gains_push .close
  unmarked shut := by
    have same : c.released = { c with room := none } := if_neg (Bool.eq_false_iff.mp shut)
    rw [same]

namespace Relay

/-- A room has ended, and nothing else is different but what was reported. -/
structure Dissolves (r next : Relay) (room : Room) : Prop where
  rooms : next.rooms = r.rooms.filter fun entry => entry.1 ≠ room.code
  members : ∀ k ∈ room.members, (r.peer k).CutLoose (next.peer k)
  host : next.peer room.host = r.peer room.host
  others : ∀ k, k ∉ room.members → next.peer k = r.peer k
  codes : next.codes = r.codes
  known : next.known = r.known
  /-- Whoever asks for a room and is given the code opens one that nobody else is in. -/
  reusable : ∀ k source rest, (next.peer k).role = .unassigned →
    source.next = (.ok room.code, rest) →
      ∃ later, (createRoom k).run { next with codes := source } =
          .ok (some ⟨room.code, k, [], []⟩) later ∧
        later.rooms = next.rooms ++ [(room.code, ⟨room.code, k, [], []⟩)]

/-- A connection has left its seat in a room, and nothing else is different but what was
reported. -/
structure Withdraws (r next : Relay) (room : Room) (seat : Seat) (h : Handle) : Prop where
  rooms : r.Reseats next room seat ((room.occupants seat).erase h)
  peers : next.peers = r.peers
  codes : next.codes = r.codes

structure Ends (r next : Relay) (h : Handle) : Prop where
  host : ∀ room, Table.find? r.rooms room.code = some room → room.host = h → r.Dissolves next room
  member : ∀ room seat, Table.find? r.rooms room.code = some room → h ∈ room.occupants seat →
    r.Withdraws next room seat h
  outsider : (∀ room, Table.find? r.rooms room.code = some room →
    h ∉ room.host :: room.members) → next = r

variable {r : Relay} {h : Handle} {room : Room}

/-- A connection without a role that is given a free code at once opens a room under it. -/
private theorem run_createRoom_of_next (role : (r.peer h).role = .unassigned) {code : String}
    {rest : CodeSource} (given : r.codes.next = (.ok code, rest))
    (free : Table.find? r.rooms code = none) :
    ∃ later, (createRoom h).run r = .ok (some (.new code h)) later ∧
      later.rooms = r.rooms ++ [(code, .new code h)] := by
  have gives : r.codes.Gives (Table.contains r.rooms) code :=
    .now given (by rw [Table.contains, free]; rfl)
  have run := run_createRoom role
  rw [codeSearch, CodeSource.outcome_search_eq_found_iff.mpr gives] at run
  have unused : Table.find? r.searched.rooms code = none := free
  exact ⟨_, run, rooms_opened_of_free h unused⟩

namespace Settled

variable (settled : r.Settled) (live : Table.find? r.rooms room.code = some room)
include settled live

private theorem relists_without {seat : Seat} (member : h ∈ room.occupants seat) :
    room.Relists (room.without h) seat ((room.occupants seat).erase h) := by
  have fits := settled.fits live
  refine ⟨rfl, rfl, ?_, ?_⟩
  · rw [Room.occupants_without, (fits.once seat).erase_eq_filter]
    refine List.filter_congr ?_
    intro k _
    by_cases same : k = h <;> simp [same]
  · intro place other
    rw [Room.occupants_without, List.filter_eq_self]
    intro k inside
    rw [decide_eq_true_eq]
    rintro rfl
    have roles := (fits.role_of_mem inside).symm.trans (fits.role_of_mem member)
    exact other (Seat.role_injective roles)

theorem dissolves : r.Dissolves (r.ended room) room := by
  have fits := settled.fits live
  have rooms : (r.ended room).rooms = Table.erase r.rooms room.code := r.rooms_ended room
  have peer := r.peer_ended fits.nodup_members
  refine ⟨?_, ?_, ?_, ?_, r.codes_ended room, ?_, ?_⟩
  · rw [rooms, Table.erase_eq_filter settled.keys]
  · intro k member
    rw [peer, if_pos member]
    exact (r.peer k).cutLoose_released
  · rw [peer, if_neg fits.host_not_mem]
  · intro k other
    rw [peer, if_neg other]
  · exact known_ended fun k member => fits.present k (List.mem_cons_of_mem _ member)
  · intro k source rest role given
    have free : Table.find? (r.ended room).rooms room.code = none := by
      rw [rooms]
      exact Table.find?_erase_self settled.keys room.code
    exact run_createRoom_of_next (r := { r.ended room with codes := source }) role given free

theorem withdraws (known : h ∈ r.known) {seat : Seat} (member : h ∈ room.occupants seat) :
    r.Withdraws (r.left h room) room seat h := by
  refine ⟨settled.reseats live (settled.relists_without live member) ?_, rfl, rfl⟩
  rw [rooms_left, settled.remove_eq_without live known]

private theorem ends_of_host : r.Ends (r.ended room) room.host := by
  have fits := settled.fits live
  refine ⟨?_, ?_, fun outside => absurd List.mem_cons_self (outside room live)⟩
  · intro other also host
    obtain rfl := settled.eq_of_mem live also List.mem_cons_self (host ▸ List.mem_cons_self)
    exact settled.dissolves live
  · intro other seat also seated
    have within := (other.mem_members room.host).mpr ⟨seat, seated⟩
    obtain rfl := settled.eq_of_mem live also List.mem_cons_self (List.mem_cons_of_mem _ within)
    exact absurd within fits.host_not_mem

private theorem ends_of_member (known : h ∈ r.known) (member : h ∈ room.members) :
    r.Ends (r.left h room) h := by
  have inside := List.mem_cons_of_mem room.host member
  refine ⟨?_, ?_, fun outside => absurd inside (outside room live)⟩
  · rintro other also rfl
    obtain rfl := settled.eq_of_mem live also inside List.mem_cons_self
    exact absurd member (settled.fits live).host_not_mem
  · intro other seat also seated
    have within := (other.mem_members h).mpr ⟨seat, seated⟩
    obtain rfl := settled.eq_of_mem live also inside (List.mem_cons_of_mem _ within)
    exact settled.withdraws live known seated

end Settled

private theorem ends_of_outside (outside : ∀ room, Table.find? r.rooms room.code = some room →
    h ∉ room.host :: room.members) : r.Ends r h := by
  refine ⟨?_, ?_, fun _ => rfl⟩
  · rintro room live rfl
    exact absurd List.mem_cons_self (outside room live)
  · intro room seat live seated
    have member := (room.mem_members h).mpr ⟨seat, seated⟩
    exact absurd (List.mem_cons_of_mem _ member) (outside room live)

/-- When a session that goes on ends, it ends as its place in a room makes it. -/
theorem Matched.ends {finished : List Handle} {joined : Seat → Handle → Handle → Prop}
    (matched : r.Matched finished joined) (known : h ∈ r.known) (present : h ∉ finished) :
    ∃ next, (disconnect h).run r = .ok () next ∧ r.Ends next h := by
  have settled := matched.settled
  have own := matched.holder_eq known present
  cases held : r.holder h with
  | none =>
    refine ⟨r, run_disconnect_of_homeless (own.symm.trans held), ends_of_outside ?_⟩
    intro room live inside
    cases held.symm.trans ((settled.holder_eq_some_iff known).mpr ⟨live, inside⟩)
  | some room =>
    obtain ⟨live, inside⟩ := (settled.holder_eq_some_iff known).mp held
    have fits := settled.fits live
    have found := own.symm.trans held
    rcases List.mem_cons.mp inside with rfl | member
    · exact ⟨r.ended room, run_disconnect_of_host fits.role_of_host found live,
        settled.ends_of_host live⟩
    · obtain ⟨seat, seated⟩ := (room.mem_members h).mp member
      have role : (r.peer h).role ≠ .host := by
        rw [fits.role_of_mem seated]
        exact seat.role_ne_host
      exact ⟨r.left h room, run_disconnect_of_member role found live,
        settled.ends_of_member live known member⟩

end Relay

namespace Sessions

/-- The states that a relay is in behind the endpoint: between two steps, and when the peer of a
session was noted as gone and the session is about to end. -/
inductive Passes (s : Sessions) : Relay → Prop
  | between : Passes s s.relay
  | leaving (k : Handle) (known : k ∈ s.relay.known) (present : k ∉ s.finished) :
    Passes s (s.relay.after (.detach k))

theorem Passes.matched {s : Sessions} {r : Relay} (passes : s.Passes r)
    {joined : Seat → Handle → Handle → Prop} (matched : s.relay.Matched s.finished joined) :
    r.Matched s.finished joined := by
  cases passes with
  | between => exact matched
  | leaving k known present => exact matched.after_detach known present

/-- However the sessions behind the endpoint interleave, the end of one that goes on takes its room
with it, or gives up its seat, or does nothing. -/
theorem ends_afterAll (codes : CodeSource) (steps : List Step)
    (disciplined : (initial codes).Disciplined steps) {r : Relay}
    (passes : ((initial codes).afterAll steps).Passes r) {h : Handle} (known : h ∈ r.known)
    (present : h ∉ ((initial codes).afterAll steps).finished) :
    ∃ next, (Relay.disconnect h).run r = .ok () next ∧ r.Ends next h :=
  (passes.matched (matched_afterAll codes steps disciplined)).ends known present

/-- Two rooms. In the first, the outbox of the first player is full, and the connection of the
second was closed by its writer. -/
def gathering : List Step :=
  [.enter 0 "h" 4, .enter 1 "p" 1, .enter 2 "q" 4, .enter 3 "s" 4, .enter 4 "k" 4, .enter 5 "n" 4,
    .frame 0 (.text "\x7b\"type\":\"host\"\x7d"),
    .frame 1 (.text "\x7b\"type\":\"join\",\"roomCode\":\"a\"\x7d"),
    .frame 2 (.text "\x7b\"type\":\"join\",\"roomCode\":\"a\"\x7d"),
    .frame 3 (.text "\x7b\"type\":\"spectate\",\"roomCode\":\"a\"\x7d"),
    .frame 4 (.text "\x7b\"type\":\"host\"\x7d"), .write 2 (fun _ => .failed .peerGone) none]

/-- The first host is about to leave, a player leaves before, and a client without a room too. -/
theorem ends_after_gathering :
    let s := (initial (.listed ["a", "b"])).afterAll gathering
    let r := s.relay.after (.detach 0)
    (initial (.listed ["a", "b"])).Disciplined gathering ∧
      (∃ next, (Relay.disconnect 0).run r = .ok () next ∧
        next.rooms = [("b", ⟨"b", 4, [], []⟩)] ∧ (next.peer 1).outbox.items = [.close] ∧
        (next.peer 1).outbox.dropped = 1 ∧ (next.peer 2).outbox = (r.peer 2).outbox ∧
        (next.peer 3).room = none ∧ next.peer 4 = r.peer 4) ∧
      (∃ next, (Relay.disconnect 1).run s.relay = .ok () next ∧ next.peers = s.relay.peers ∧
        ∃ rest, rest.occupants .player = [2] ∧ rest.occupants .spectator = [3] ∧
          next.rooms = [("a", rest), ("b", ⟨"b", 4, [], []⟩)]) ∧
      (Relay.disconnect 5).run s.relay = .ok () s.relay := by
  intro s r
  have disciplined : (initial (.listed ["a", "b"])).Disciplined gathering := by decide +kernel
  have rooms : s.relay.rooms =
      [("a", ⟨"a", 0, [1, 2], [3]⟩), ("b", ⟨"b", 4, [], []⟩)] := by decide +kernel
  have live : Table.find? s.relay.rooms "a" = some ⟨"a", 0, [1, 2], [3]⟩ := by rw [rooms]; rfl
  have known : ∀ k ∈ [0, 1, 5], k ∈ s.relay.known := by decide +kernel
  have present (k : Handle) : k ∉ s.finished := List.not_mem_nil
  refine ⟨disciplined, ?_, ?_, ?_⟩
  · have passes : s.Passes r := .leaving 0 (known 0 (by decide)) (present 0)
    obtain ⟨next, run, ends⟩ := ends_afterAll (.listed ["a", "b"]) gathering disciplined passes
      (h := 0) (by decide +kernel) (present 0)
    have dissolves := ends.host ⟨"a", 0, [1, 2], [3]⟩ live rfl
    have left : next.rooms = s.relay.rooms.filter fun entry => entry.1 ≠ "a" := dissolves.rooms
    rw [rooms] at left
    have first := (dissolves.members 1 (by decide)).marked (by decide +kernel)
    refine ⟨next, run, left, first.items.trans (by decide +kernel),
      first.dropped.trans (by decide +kernel),
      (dissolves.members 2 (by decide)).unmarked (by decide +kernel),
      (dissolves.members 3 (by decide)).room, dissolves.others 4 (by decide)⟩
  · obtain ⟨next, run, ends⟩ := ends_afterAll (.listed ["a", "b"]) gathering disciplined .between
      (h := 1) (known 1 (by decide)) (present 1)
    have withdraws := ends.member ⟨"a", 0, [1, 2], [3]⟩ .player live (by decide)
    obtain ⟨rest, relists, left⟩ := withdraws.rooms
    rw [rooms] at left
    exact ⟨next, run, withdraws.peers, rest, relists.list, relists.other .spectator nofun, left⟩
  · obtain ⟨next, run, ends⟩ := ends_afterAll (.listed ["a", "b"]) gathering disciplined .between
      (h := 5) (known 5 (by decide)) (present 5)
    have outside : ∀ room, Table.find? s.relay.rooms room.code = some room →
        5 ∉ room.host :: room.members := by
      intro room live
      have entry := Table.mem_of_find? live
      rw [rooms] at entry
      rcases List.mem_cons.mp entry with same | entry
      · obtain rfl : room = _ := congrArg Prod.snd same
        decide
      · obtain rfl : room = _ := congrArg Prod.snd (List.mem_singleton.mp entry)
        decide
    rw [run, ends.outsider outside]

end Sessions

end GameRelay
