import GameRelay.Proofs.Relay.Departures
import GameRelay.Proofs.Relay.Reactions

/-!
# What is different afterwards

Words for how a state differs from an earlier one: an outbox has gained an item, a connection has
heard a message or several have, a room has another list of those who have one kind of seat. Each
says what is different, and that all else is not.
-/

set_option autoImplicit false
set_option relaxedAutoImplicit false

namespace GameRelay

/-- An item has come into an outbox as the last one. A full outbox has lost its oldest item, which
is counted. -/
structure Outbox.Gains (o next : Outbox) (item : Item) : Prop where
  items : next.items = (if o.isFull then o.items.tail else o.items) ++ [item]
  dropped : next.dropped = if o.isFull then o.dropped + 1 else o.dropped
  capacity : next.capacity = o.capacity

theorem Outbox.gains_push (o : Outbox) (item : Item) : o.Gains (o.push item) item :=
  ⟨rfl, rfl, rfl⟩

/-- A connection was sent a message: it came into the outbox of an open connection, and a closed one
is as it was. -/
structure Connection.Hears (c next : Connection) (m : Message) : Prop where
  gains : c.isOpen → c.outbox.Gains next.outbox (.message m)
  shut : c.isOpen = false → next = c
  kept : next = { c with outbox := next.outbox }

theorem Connection.hears_offered (c : Connection) (m : Message) : c.Hears (c.offered m) m := by
  by_cases isOpen : c.isOpen
  · rw [offered, if_pos isOpen]
    exact ⟨fun _ => c.outbox.gains_push _, fun shut => (nomatch isOpen.symm.trans shut), rfl⟩
  · rw [offered, if_neg isOpen]
    exact ⟨fun opens => absurd opens isOpen, fun _ => rfl, rfl⟩

/-- A room is as it was, but for the list of those who have one kind of seat. -/
structure Room.Relists (room later : Room) (seat : Seat) (list : List Handle) : Prop where
  code : later.code = room.code
  host : later.host = room.host
  list : later.occupants seat = list
  other : ∀ place, place ≠ seat → later.occupants place = room.occupants place

namespace Relay

variable {r next : Relay}

/-- Nothing is different but outboxes, and what was reported. -/
structure OnlyOutboxes (r next : Relay) : Prop where
  peer : ∀ k, next.peer k = { r.peer k with outbox := (next.peer k).outbox }
  rooms : next.rooms = r.rooms
  codes : next.codes = r.codes
  known : next.known = r.known

/-- Some connections were sent a message each, and nothing else is different but what was
reported. -/
structure Informs (r next : Relay) (hearers : List Handle) (m : Message) : Prop where
  hears : ∀ k ∈ hearers, (r.peer k).Hears (next.peer k) m
  others : ∀ k, k ∉ hearers → next.peer k = r.peer k
  rooms : next.rooms = r.rooms
  codes : next.codes = r.codes
  known : next.known = r.known

/-- Of all live rooms only one is different, in one of its lists. -/
def Reseats (r next : Relay) (room : Room) (seat : Seat) (list : List Handle) : Prop :=
  ∃ later, room.Relists later seat list ∧
    next.rooms = r.rooms.map fun entry => if entry.1 = room.code then (room.code, later) else entry

theorem informs_of_follows {hearers : List Handle} {m : Message}
    (follows : r.Follows next (.tell hearers m)) : r.Informs next hearers m := by
  have peer (k : Handle) : next.peer k = if k ∈ hearers then (r.peer k).offered m else r.peer k :=
    follows.peer k
  refine ⟨?_, ?_, follows.rooms, follows.codes, follows.known⟩
  · intro k hearer
    rw [peer, if_pos hearer]
    exact (r.peer k).hears_offered m
  · intro k other
    rw [peer, if_neg other]

theorem Informs.onlyOutboxes {hearers : List Handle} {m : Message}
    (informs : r.Informs next hearers m) : r.OnlyOutboxes next := by
  refine ⟨?_, informs.rooms, informs.codes, informs.known⟩
  intro k
  by_cases hearer : k ∈ hearers
  · exact (informs.hears k hearer).kept
  · rw [informs.others k hearer]

theorem OnlyReports.onlyOutboxes (only : r.OnlyReports next) : r.OnlyOutboxes next := by
  obtain ⟨peers, rooms, codes⟩ := only
  refine ⟨?_, rooms, codes, congrArg Table.keys peers⟩
  intro k
  rw [peer, peers, ← peer]

theorem onlyReports_noted (r : Relay) (e : Event) : r.OnlyReports (r.noted e) := ⟨rfl, rfl, rfl⟩

theorem Settled.reseats (settled : r.Settled) {room later : Room} {seat : Seat}
    {list : List Handle} (live : Table.find? r.rooms room.code = some room)
    (relists : room.Relists later seat list)
    (rooms : next.rooms = Table.put r.rooms room.code later) : r.Reseats next room seat list := by
  have member := Table.mem_keys_of_mem (Table.mem_of_find? live)
  exact ⟨later, relists, rooms.trans (Table.put_of_mem settled.keys later member)⟩

end Relay

end GameRelay
