import GameRelay.Proofs.Writer
import GameRelay.Proofs.Relay.Custody

/-!
# What a closed connection still gets

A connection is closed from this side by itself, or together with its room when the session of the
host ends. Its writer then hands over what still waits, closes the socket and is done. The marker
that asks for this needs a place in the outbox: at a full one it pushes out the oldest message.
-/

set_option autoImplicit false
set_option relaxedAutoImplicit false

namespace GameRelay

namespace Relay

/-- On a socket that never fails the writer of a connection hands over exactly some messages, in
order, closes the socket normally and is done. -/
def Flushes (r : Relay) (h : Handle) (ms : List Message) : Prop :=
  ∃ run next, (runWriter h (fun _ => .accepted) none).run r = .ok run next ∧
    run.written = ms.map .message ++ [.close 1000] ∧ run.ending = .closed ∧ run.left = []

private theorem flushes_of_items {r : Relay} {h : Handle} {ms : List Message}
    (items : (r.peer h).outbox.items = ms.map .message ++ [.close]) : r.Flushes h ms := by
  have runs := run_runWriter r h (fun _ => .accepted) none
  have run : Writer.run (fun _ => .accepted) 0 (Writer.queue none (r.peer h).outbox.items) =
      ⟨ms.map .message ++ [.close normalClosure], .closed, []⟩ := by
    rw [items]
    exact Writer.run_map_append ms [.close] fun _ _ => rfl
  rw [run] at runs
  exact ⟨_, _, runs, rfl, rfl, rfl⟩

private theorem Flushes.unique {r : Relay} {h : Handle} {ms others : List Message}
    (flushes : r.Flushes h ms) (also : r.Flushes h others) : ms = others := by
  obtain ⟨run, next, runs, written, _⟩ := flushes
  obtain ⟨again, after, same, handed, _⟩ := also
  obtain ⟨rfl, rfl⟩ := EStateM.Result.ok.inj (runs.symm.trans same)
  have messages := List.append_cancel_right (written.symm.trans handed)
  exact List.map_injective_iff.mpr (fun _ _ => Transmission.message.inj) messages

private theorem flushes_of_marked {r next : Relay} {h : Handle} {ms : List Message}
    (waits : (r.peer h).outbox.items = ms.map .message)
    (marked : (next.peer h).outbox = (r.peer h).outbox.push .close) :
    next.Flushes h (if (r.peer h).outbox.isFull then ms.tail else ms) := by
  apply flushes_of_items
  rw [marked]
  show (r.peer h).outbox.itemsAfter .close = _
  rw [Outbox.itemsAfter, waits]
  split
  · rw [List.map_tail]
  · rfl

theorem flushes_of_marked_iff {r next : Relay} {h : Handle} {ms : List Message}
    (waits : (r.peer h).outbox.items = ms.map .message)
    (marked : (next.peer h).outbox = (r.peer h).outbox.push .close) :
    next.Flushes h ms ↔ (r.peer h).outbox.isFull = false := by
  have flushes := flushes_of_marked waits marked
  cases full : (r.peer h).outbox.isFull with
  | false =>
    rw [full] at flushes
    exact iff_of_true flushes rfl
  | true =>
    rw [full, if_pos rfl] at flushes
    refine iff_of_false (fun all => ?_) nofun
    have reached := (r.peer h).outbox.isFull_iff.mp full
    have same := congrArg List.length (all.unique flushes)
    have length := congrArg List.length waits
    rw [List.length_tail] at same
    rw [List.length_map] at length
    omega

theorem outbox_after_close {r : Relay} {h : Handle} (isOpen : (r.peer h).isOpen) :
    ((r.after (.close h)).peer h).outbox = (r.peer h).outbox.push .close := by
  rw [after_close, outbox_closed isOpen]

theorem outbox_after_end {r : Relay} (settled : r.Settled) {code : String} {room : Room}
    (live : Table.find? r.rooms code = some room) {h : Handle} (member : h ∈ room.members)
    (isOpen : (r.peer h).isOpen) :
    ((r.after (.disconnect room.host)).peer h).outbox = (r.peer h).outbox.push .close := by
  rw [settled.after_disconnect_of_host live, peer_ended _ (settled.fits live).nodup_members,
    if_pos member]
  exact Connection.outbox_closed_of_open isOpen

/-- A connection that is closed from this side, or whose room ends with the session of its host, is
sent all messages that wait for it exactly when its outbox is not full. -/
theorem flushes_iff (r : Relay) {h : Handle} {ms : List Message} (isOpen : (r.peer h).isOpen)
    (waits : (r.peer h).outbox.items = ms.map .message) :
    ((r.after (.close h)).Flushes h ms ↔ (r.peer h).outbox.isFull = false) ∧
      (r.Settled → ∀ entry ∈ r.rooms, h ∈ entry.2.members →
        ((r.after (.disconnect entry.2.host)).Flushes h ms ↔
          (r.peer h).outbox.isFull = false)) := by
  constructor
  · exact flushes_of_marked_iff waits (outbox_after_close isOpen)
  · intro settled entry live member
    have live := Table.find?_of_mem settled.keys live
    exact flushes_of_marked_iff waits (outbox_after_end settled live member isOpen)

/-- A player with an outbox of some capacity has joined, and its confirmation still waits. -/
def confirmed (capacity : Int) : Relay :=
  (initial (.listed ["a"])).afterAll
    [.arrive 0 "h" 4, .arrive 1 "p" capacity, .host 0, .seat .player 1 (some "a")]

theorem flushes_confirmed :
    ((confirmed 2).peer 1).isOpen ∧
      ((confirmed 2).peer 1).outbox.items = [Message.seated .player "a"].map .message ∧
      ((confirmed 2).after (.close 1)).Flushes 1 [.seated .player "a"] ∧
      ((confirmed 2).after (.disconnect 0)).Flushes 1 [.seated .player "a"] := by
  have isOpen : ((confirmed 2).peer 1).isOpen := by decide +kernel
  have waits : ((confirmed 2).peer 1).outbox.items = [Message.seated .player "a"].map .message := by
    decide +kernel
  have room : ((confirmed 2).peer 1).outbox.isFull = false := by decide +kernel
  have settled : (confirmed 2).Settled :=
    settled_afterAll (settled_initial _) (by decide +kernel)
  obtain ⟨closes, ends⟩ := flushes_iff (confirmed 2) isOpen waits
  have live : ("a", ⟨"a", 0, [1], []⟩) ∈ (confirmed 2).rooms := by decide +kernel
  exact ⟨isOpen, waits, closes.mpr room,
    (ends settled _ live (List.mem_singleton_self 1)).mpr room⟩

/-- The only message that waits in a full outbox is not sent. -/
theorem not_flushes_confirmed :
    ((confirmed 1).peer 1).isOpen ∧
      ((confirmed 1).peer 1).outbox.items = [Message.seated .player "a"].map .message ∧
      ¬((confirmed 1).after (.close 1)).Flushes 1 [.seated .player "a"] ∧
      ¬((confirmed 1).after (.disconnect 0)).Flushes 1 [.seated .player "a"] := by
  have isOpen : ((confirmed 1).peer 1).isOpen := by decide +kernel
  have waits : ((confirmed 1).peer 1).outbox.items = [Message.seated .player "a"].map .message := by
    decide +kernel
  have full : ((confirmed 1).peer 1).outbox.isFull ≠ false := by decide +kernel
  have settled : (confirmed 1).Settled :=
    settled_afterAll (settled_initial _) (by decide +kernel)
  have live : Table.find? (confirmed 1).rooms "a" = some ⟨"a", 0, [1], []⟩ := by decide +kernel
  have ends := outbox_after_end settled live (List.mem_singleton_self 1) isOpen
  refine ⟨isOpen, waits, fun flushes => full ?_, fun flushes => full ?_⟩
  · exact (flushes_of_marked_iff waits (outbox_after_close isOpen)).mp flushes
  · exact (flushes_of_marked_iff waits ends).mp flushes

end Relay

end GameRelay
