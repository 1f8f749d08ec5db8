import GameRelay.Proofs.Table
import GameRelay.Relay.Delivery
import GameRelay.Relay.Writing

/-!
# What small actions do

Each small action of a relay as a function on states: what one connection becomes, what all others
keep, and that the action does not fail. A loop over handles that stand apart changes each of their
connections once.
-/

set_option autoImplicit false
set_option relaxedAutoImplicit false

namespace GameRelay

namespace Connection

def standing (c : Connection) : Role × Option String := (c.role, c.room)

def received (c : Connection) (item : Item) : Connection :=
  { c with outbox := c.outbox.push item }

/-- A connection after it was sent a message: a closed one does not take it. -/
def offered (c : Connection) (m : Message) : Connection :=
  if c.isOpen then c.received (.message m) else c

def closed (c : Connection) : Connection :=
  if c.isOpen then { c with isOpen := false }.received .close else c

def released (c : Connection) : Connection := { c with room := none }.closed

/-- A connection after its writer has run: a failure that a vanished peer causes closes it. -/
def written (c : Connection) (socket : Nat → CallOutcome) (held : Option Item) : Connection :=
  match (Writer.run socket 0 (Writer.queue held c.outbox.items)).ending with
  | .failed fault =>
    { c with outbox := c.outbox.afterRun socket held, isOpen := c.isOpen && !fault.isExpected }
  | _ => { c with outbox := c.outbox.afterRun socket held }

@[simp] theorem id_received (c : Connection) (item : Item) : (c.received item).id = c.id := rfl

@[simp] theorem standing_received (c : Connection) (item : Item) :
    (c.received item).standing = c.standing := rfl

@[simp] theorem isOpen_received (c : Connection) (item : Item) :
    (c.received item).isOpen = c.isOpen := rfl

@[simp] theorem id_offered (c : Connection) (m : Message) : (c.offered m).id = c.id := by
  unfold offered
  split <;> rfl

@[simp] theorem standing_offered (c : Connection) (m : Message) :
    (c.offered m).standing = c.standing := by
  unfold offered
  split <;> rfl

@[simp] theorem isOpen_offered (c : Connection) (m : Message) :
    (c.offered m).isOpen = c.isOpen := by
  unfold offered
  split <;> rfl

@[simp] theorem id_closed (c : Connection) : c.closed.id = c.id := by
  unfold closed
  split <;> rfl

@[simp] theorem standing_closed (c : Connection) : c.closed.standing = c.standing := by
  unfold closed
  split <;> rfl

@[simp] theorem isOpen_closed (c : Connection) : c.closed.isOpen = false := by
  by_cases isOpen : c.isOpen <;> simp [closed, isOpen]

theorem outbox_closed_of_open {c : Connection} (isOpen : c.isOpen) :
    c.closed.outbox = c.outbox.push .close := by
  rw [closed, if_pos isOpen]
  rfl

@[simp] theorem id_released (c : Connection) : c.released.id = c.id := by
  simp [released]

@[simp] theorem standing_released (c : Connection) : c.released.standing = (c.role, none) :=
  standing_closed _

@[simp] theorem room_released (c : Connection) : c.released.room = none :=
  congrArg Prod.snd c.standing_released

@[simp] theorem isOpen_released (c : Connection) : c.released.isOpen = false := by
  simp [released]

@[simp] theorem id_written (c : Connection) (socket : Nat → CallOutcome) (held : Option Item) :
    (c.written socket held).id = c.id := by
  unfold written
  split <;> rfl

@[simp] theorem standing_written (c : Connection) (socket : Nat → CallOutcome)
    (held : Option Item) : (c.written socket held).standing = c.standing := by
  unfold written
  split <;> rfl

@[simp] theorem outbox_written (c : Connection) (socket : Nat → CallOutcome)
    (held : Option Item) : (c.written socket held).outbox = c.outbox.afterRun socket held := by
  unfold written
  split <;> rfl

theorem isOpen_of_written {c : Connection} {socket : Nat → CallOutcome} {held : Option Item}
    (isOpen : (c.written socket held).isOpen) : c.isOpen := by
  unfold written at isOpen
  split at isOpen
  · exact (Bool.and_eq_true_iff.mp isOpen).1
  · exact isOpen

theorem isOpen_written_of_shut {c : Connection} (socket : Nat → CallOutcome) (held : Option Item)
    (shut : c.isOpen = false) : (c.written socket held).isOpen = false := by
  by_contra isOpen
  rw [Bool.not_eq_false] at isOpen
  exact Bool.false_ne_true (shut.symm.trans (isOpen_of_written isOpen))

end Connection

namespace Relay

/-- The handles of those who have come, in order. -/
def known (r : Relay) : List Handle := Table.keys r.peers

theorem peer_setPeer (r : Relay) (h k : Handle) (c : Connection) :
    (r.setPeer h c).peer k = if k = h then c else r.peer k := by
  by_cases same : k = h
  · subst same
    simp
  · rw [peer_setPeer_of_ne r c same, if_neg same]

@[simp] theorem rooms_setPeer (r : Relay) (h : Handle) (c : Connection) :
    (r.setPeer h c).rooms = r.rooms := rfl

@[simp] theorem codes_setPeer (r : Relay) (h : Handle) (c : Connection) :
    (r.setPeer h c).codes = r.codes := rfl

theorem known_setPeer (r : Relay) {h : Handle} (c : Connection) (member : h ∈ r.known) :
    (r.setPeer h c).known = r.known :=
  Table.keys_put_of_mem c member

@[simp] theorem peer_setRoom (r : Relay) (code : String) (room : Room) (k : Handle) :
    (r.setRoom code room).peer k = r.peer k := rfl

@[simp] theorem known_setRoom (r : Relay) (code : String) (room : Room) :
    (r.setRoom code room).known = r.known := rfl

@[simp] theorem rooms_setRoom (r : Relay) (code : String) (room : Room) :
    (r.setRoom code room).rooms = Table.put r.rooms code room := rfl

@[simp] theorem codes_setRoom (r : Relay) (code : String) (room : Room) :
    (r.setRoom code room).codes = r.codes := rfl

theorem peer_of_not_known {r : Relay} {h : Handle} (fresh : h ∉ r.known) :
    r.peer h = .new "" defaultCapacity := by
  rw [peer, (Table.find?_eq_none_iff r.peers h).mpr fresh, Option.getD_none]

theorem known_of_role {r : Relay} {h : Handle} (role : (r.peer h).role ≠ .unassigned) :
    h ∈ r.known := by
  by_contra fresh
  exact role (congrArg Connection.role (peer_of_not_known fresh))

theorem known_of_room {r : Relay} {h : Handle} {code : String}
    (own : (r.peer h).room = some code) : h ∈ r.known := by
  by_contra fresh
  rw [peer_of_not_known fresh] at own
  cases own

def noted (r : Relay) (e : Event) : Relay := { r with journal := e :: r.journal }

@[simp] theorem peer_noted (r : Relay) (e : Event) (k : Handle) :
    (r.noted e).peer k = r.peer k := rfl

@[simp] theorem rooms_noted (r : Relay) (e : Event) : (r.noted e).rooms = r.rooms := rfl

@[simp] theorem codes_noted (r : Relay) (e : Event) : (r.noted e).codes = r.codes := rfl

@[simp] theorem known_noted (r : Relay) (e : Event) : (r.noted e).known = r.known := rfl

@[simp] theorem run_report (r : Relay) (e : Event) :
    (report e).run r = .ok () (r.noted e) := rfl

@[simp] theorem run_modifyPeer (r : Relay) (h : Handle) (f : Connection → Connection) :
    (modifyPeer h f).run r = .ok () (r.setPeer h (f (r.peer h))) := rfl

def accepted (r : Relay) (h : Handle) (item : Item) : Relay :=
  if (r.peer h).outbox.isFull then
    (r.setPeer h ((r.peer h).received item)).noted
      (.itemDropped (r.peer h).id ((r.peer h).outbox.push item).dropped)
  else r.setPeer h ((r.peer h).received item)

/-- The state after a message was sent, or the event reported that it could not be. -/
def offered (r : Relay) (h : Handle) (m : Message) (e : Event) : Relay :=
  if (r.peer h).isOpen then r.accepted h (.message m) else r.noted e

def closed (r : Relay) (h : Handle) : Relay :=
  if (r.peer h).isOpen then (r.setPeer h { r.peer h with isOpen := false }).accepted h .close
  else r

def released (r : Relay) (h : Handle) : Relay :=
  (r.setPeer h { r.peer h with room := none }).closed h

theorem peer_accepted (r : Relay) (h k : Handle) (item : Item) :
    (r.accepted h item).peer k = if k = h then (r.peer h).received item else r.peer k := by
  unfold accepted
  split <;> simp [peer_setPeer]

theorem outbox_accepted (r : Relay) (h : Handle) (item : Item) :
    ((r.accepted h item).peer h).outbox = (r.peer h).outbox.push item := by
  rw [peer_accepted, if_pos rfl]
  rfl

theorem peer_offered (r : Relay) (h k : Handle) (m : Message) (e : Event) :
    (r.offered h m e).peer k = if k = h then (r.peer h).offered m else r.peer k := by
  unfold offered Connection.offered
  split
  · exact peer_accepted r h k (.message m)
  · split
    · simp [*]
    · rfl

theorem peer_closed (r : Relay) (h k : Handle) :
    (r.closed h).peer k = if k = h then (r.peer h).closed else r.peer k := by
  unfold closed Connection.closed
  split
  · rw [peer_accepted, peer_setPeer_self]
    split
    · rfl
    · exact peer_setPeer_of_ne r _ ‹_›
  · split
    · simp [*]
    · rfl

theorem outbox_closed {r : Relay} {h : Handle} (isOpen : (r.peer h).isOpen) :
    ((r.closed h).peer h).outbox = (r.peer h).outbox.push .close := by
  rw [peer_closed, if_pos rfl, Connection.outbox_closed_of_open isOpen]

theorem peer_released (r : Relay) (h k : Handle) :
    (r.released h).peer k = if k = h then (r.peer h).released else r.peer k := by
  rw [released, peer_closed, peer_setPeer_self]
  split
  · rfl
  · exact peer_setPeer_of_ne r _ ‹_›

@[simp] theorem rooms_accepted (r : Relay) (h : Handle) (item : Item) :
    (r.accepted h item).rooms = r.rooms := by
  unfold accepted
  split <;> rfl

@[simp] theorem rooms_offered (r : Relay) (h : Handle) (m : Message) (e : Event) :
    (r.offered h m e).rooms = r.rooms := by
  unfold offered
  split <;> simp

@[simp] theorem rooms_closed (r : Relay) (h : Handle) : (r.closed h).rooms = r.rooms := by
  unfold closed
  split <;> simp

@[simp] theorem rooms_released (r : Relay) (h : Handle) : (r.released h).rooms = r.rooms := by
  simp [released]

@[simp] theorem codes_accepted (r : Relay) (h : Handle) (item : Item) :
    (r.accepted h item).codes = r.codes := by
  unfold accepted
  split <;> rfl

@[simp] theorem codes_offered (r : Relay) (h : Handle) (m : Message) (e : Event) :
    (r.offered h m e).codes = r.codes := by
  unfold offered
  split <;> simp

@[simp] theorem codes_closed (r : Relay) (h : Handle) : (r.closed h).codes = r.codes := by
  unfold closed
  split <;> simp

@[simp] theorem codes_released (r : Relay) (h : Handle) : (r.released h).codes = r.codes := by
  simp [released]

theorem known_accepted (r : Relay) {h : Handle} (item : Item) (member : h ∈ r.known) :
    (r.accepted h item).known = r.known := by
  unfold accepted
  split <;> simp [known_setPeer, member]

theorem known_offered (r : Relay) {h : Handle} (m : Message) (e : Event) (member : h ∈ r.known) :
    (r.offered h m e).known = r.known := by
  unfold offered
  split <;> simp [known_accepted, member]

theorem known_closed (r : Relay) {h : Handle} (member : h ∈ r.known) :
    (r.closed h).known = r.known := by
  unfold closed
  split
  · rw [known_accepted _ _ (by rwa [known_setPeer r _ member]), known_setPeer r _ member]
  · rfl

private theorem known_released (r : Relay) {h : Handle} (member : h ∈ r.known) :
    (r.released h).known = r.known := by
  rw [released, known_closed _ (by rwa [known_setPeer r _ member]), known_setPeer r _ member]

@[simp] theorem run_enqueue (r : Relay) (h : Handle) (item : Item) :
    (enqueue h item).run r = .ok () (r.accepted h item) := by
  unfold enqueue accepted
  simp only [EStateM.run_bind, EStateM.run_get, Outbox.enqueue_eq_ok, run_modifyPeer]
  split <;> rfl

/-- A message to a connection that is not open is the only one that cannot be sent. -/
theorem run_send (r : Relay) (h : Handle) (m : Message) :
    (send h m).run r =
      if (r.peer h).isOpen then .ok () (r.accepted h (.message m))
      else .error (.channelClosed (r.idOf h)) r := by
  unfold send
  simp only [EStateM.run_bind, EStateM.run_get]
  split
  · exact run_enqueue r h (.message m)
  · rfl

@[simp] theorem run_sendOrReport (r : Relay) (h : Handle) (m : Message) (e : Event) :
    (sendOrReport h m e).run r = .ok () (r.offered h m e) := by
  have sent := run_send r h m
  unfold offered
  by_cases isOpen : (r.peer h).isOpen
  · rw [if_pos isOpen] at sent ⊢
    simp only [sendOrReport, tryCatch, tryCatchThe, MonadExceptOf.tryCatch, EStateM.tryCatch,
      EStateM.run] at sent ⊢
    rw [sent]
  · rw [if_neg isOpen] at sent ⊢
    simp only [sendOrReport, tryCatch, tryCatchThe, MonadExceptOf.tryCatch, EStateM.tryCatch,
      EStateM.run] at sent ⊢
    rw [sent]
    rfl

@[simp] theorem run_reply (r : Relay) (h : Handle) (m : Message) :
    (reply h m).run r = .ok () (r.offered h m (.replyDropped (r.idOf h))) :=
  run_sendOrReport r h m _

@[simp] theorem run_close (r : Relay) (h : Handle) : (close h).run r = .ok () (r.closed h) := by
  unfold close closed
  simp only [EStateM.run_bind, EStateM.run_get]
  split
  · simp
  · rfl

@[simp] theorem run_release (r : Relay) (h : Handle) :
    (release h).run r = .ok () (r.released h) := by
  simp [release, released]

@[simp] theorem run_sendToHost (r : Relay) (room : Room) (m : Message) :
    (sendToHost room m).run r =
      .ok () (r.offered room.host m (.hostSkipped room.code (r.idOf room.host))) :=
  run_sendOrReport r room.host m _

theorem run_forM {f : Handle → Action Unit} {g : Relay → Handle → Relay}
    (step : ∀ r h, (f h).run r = .ok () (g r h)) (hs : List Handle) (r : Relay) :
    (hs.forM f).run r = .ok () (hs.foldl g r) := by
  induction hs generalizing r with
  | nil => rfl
  | cons h rest ih =>
    change (f h >>= fun _ => rest.forM f).run r = _
    rw [EStateM.run_bind, step]
    exact ih (g r h)

/-- A loop over handles that stand apart changes each of their connections once. -/
theorem peer_foldl {g : Relay → Handle → Relay} {f : Connection → Connection}
    (step : ∀ r h k, (g r h).peer k = if k = h then f (r.peer h) else r.peer k)
    {hs : List Handle} (apart : hs.Nodup) (r : Relay) (k : Handle) :
    (hs.foldl g r).peer k = if k ∈ hs then f (r.peer k) else r.peer k := by
  induction hs generalizing r with
  | nil => simp
  | cons h rest ih =>
    obtain ⟨fresh, apart⟩ := List.nodup_cons.mp apart
    rw [List.foldl_cons, ih apart, step]
    by_cases same : k = h
    · subst same
      simp [fresh]
    · simp [same]

theorem foldl_keeps {β : Type} (view : Relay → β) {g : Relay → Handle → Relay}
    (step : ∀ r h, view (g r h) = view r) (hs : List Handle) (r : Relay) :
    view (hs.foldl g r) = view r := by
  induction hs generalizing r with
  | nil => rfl
  | cons h rest ih => rw [List.foldl_cons, ih, step]

theorem known_foldl {g : Relay → Handle → Relay}
    (step : ∀ (r : Relay) (h : Handle), h ∈ r.known → (g r h).known = r.known)
    {hs : List Handle} {r : Relay} (members : ∀ h ∈ hs, h ∈ r.known) :
    (hs.foldl g r).known = r.known := by
  induction hs generalizing r with
  | nil => rfl
  | cons h rest ih =>
    have first := step r h (members h List.mem_cons_self)
    rw [List.foldl_cons, ih, first]
    intro k member
    rw [first]
    exact members k (List.mem_cons_of_mem h member)

def broadcasted (r : Relay) (room : Room) (m : Message) : Relay :=
  room.members.foldl (fun r h => r.offered h m (.memberSkipped room.code (r.idOf h))) r

def emptied (r : Relay) (room : Room) : Relay := room.members.foldl released r

private theorem run_sendToMember (r : Relay) (code : String) (m : Message) (h : Handle) :
    (sendToMember code m h).run r = .ok () (r.offered h m (.memberSkipped code (r.idOf h))) :=
  run_sendOrReport r h m _

@[simp] theorem run_broadcast (r : Relay) (room : Room) (m : Message) :
    (broadcast room m).run r = .ok () (r.broadcasted room m) :=
  run_forM (fun r => run_sendToMember r room.code m) room.members r

@[simp] theorem run_closeMembers (r : Relay) (room : Room) :
    (closeMembers room).run r = .ok () (r.emptied room) :=
  run_forM run_release room.members r

theorem peer_broadcasted (r : Relay) {room : Room} (m : Message) (apart : room.members.Nodup)
    (k : Handle) :
    (r.broadcasted room m).peer k = if k ∈ room.members then (r.peer k).offered m else r.peer k :=
  peer_foldl (f := fun c => c.offered m) (fun r h k => peer_offered r h k m _) apart r k

theorem peer_emptied (r : Relay) {room : Room} (apart : room.members.Nodup) (k : Handle) :
    (r.emptied room).peer k = if k ∈ room.members then (r.peer k).released else r.peer k :=
  peer_foldl peer_released apart r k

@[simp] theorem rooms_broadcasted (r : Relay) (room : Room) (m : Message) :
    (r.broadcasted room m).rooms = r.rooms :=
  foldl_keeps rooms (fun r h => rooms_offered r h m _) room.members r

@[simp] theorem rooms_emptied (r : Relay) (room : Room) : (r.emptied room).rooms = r.rooms :=
  foldl_keeps rooms rooms_released room.members r

@[simp] theorem codes_broadcasted (r : Relay) (room : Room) (m : Message) :
    (r.broadcasted room m).codes = r.codes :=
  foldl_keeps codes (fun r h => codes_offered r h m _) room.members r

@[simp] theorem codes_emptied (r : Relay) (room : Room) : (r.emptied room).codes = r.codes :=
  foldl_keeps codes codes_released room.members r

theorem known_broadcasted {r : Relay} {room : Room} (m : Message)
    (members : ∀ h ∈ room.members, h ∈ r.known) : (r.broadcasted room m).known = r.known :=
  known_foldl (fun r _ => known_offered r m _) members

theorem known_emptied {r : Relay} {room : Room} (members : ∀ h ∈ room.members, h ∈ r.known) :
    (r.emptied room).known = r.known :=
  known_foldl (fun r _ => known_released r) members

def written (r : Relay) (h : Handle) (socket : Nat → CallOutcome) (held : Option Item) : Relay :=
  match (Writer.run socket 0 (Writer.queue held (r.peer h).outbox.items)).ending with
  | .failed fault =>
    if fault.isExpected then
      ((r.setPeer h { r.peer h with outbox := (r.peer h).outbox.afterRun socket held }).noted
        (.writerStopped (r.idOf h) fault)).setPeer h
          { r.peer h with outbox := (r.peer h).outbox.afterRun socket held, isOpen := false }
    else r.setPeer h { r.peer h with outbox := (r.peer h).outbox.afterRun socket held }
  | _ => r.setPeer h { r.peer h with outbox := (r.peer h).outbox.afterRun socket held }

theorem run_runWriter (r : Relay) (h : Handle) (socket : Nat → CallOutcome) (held : Option Item) :
    (runWriter h socket held).run r =
      .ok (Writer.run socket 0 (Writer.queue held (r.peer h).outbox.items))
        (r.written h socket held) := by
  simp only [runWriter, written, EStateM.run_bind, EStateM.run_get, run_modifyPeer]
  cases (Writer.run socket 0 (Writer.queue held (r.peer h).outbox.items)).ending with
  | closed => rfl
  | idle => rfl
  | holding item => rfl
  | failed fault =>
    by_cases expected : fault.isExpected
    · simp [expected, idOf, -bind_pure_comp]
    · simp [expected]

theorem peer_written (r : Relay) (h k : Handle) (socket : Nat → CallOutcome)
    (held : Option Item) :
    (r.written h socket held).peer k =
      if k = h then (r.peer h).written socket held else r.peer k := by
  unfold written Connection.written
  cases (Writer.run socket 0 (Writer.queue held (r.peer h).outbox.items)).ending with
  | closed => exact peer_setPeer r h k _
  | idle => exact peer_setPeer r h k _
  | holding item => exact peer_setPeer r h k _
  | failed fault =>
    by_cases expected : fault.isExpected
    · by_cases same : k = h <;> simp [expected, peer_setPeer, same]
    · by_cases same : k = h <;> simp [expected, peer_setPeer, same]

theorem peer_written_self (r : Relay) (h : Handle) (socket : Nat → CallOutcome)
    (held : Option Item) : (r.written h socket held).peer h = (r.peer h).written socket held :=
  (r.peer_written h h socket held).trans (if_pos rfl)

@[simp] theorem rooms_written (r : Relay) (h : Handle) (socket : Nat → CallOutcome)
    (held : Option Item) : (r.written h socket held).rooms = r.rooms := by
  unfold written
  split
  · split <;> rfl
  · rfl

@[simp] theorem codes_written (r : Relay) (h : Handle) (socket : Nat → CallOutcome)
    (held : Option Item) : (r.written h socket held).codes = r.codes := by
  unfold written
  split
  · split <;> rfl
  · rfl

theorem known_written (r : Relay) {h : Handle} (socket : Nat → CallOutcome) (held : Option Item)
    (member : h ∈ r.known) : (r.written h socket held).known = r.known := by
  unfold written
  split
  · split
    · rw [known_setPeer _ _ (by rwa [known_noted, known_setPeer r _ member]), known_noted,
        known_setPeer r _ member]
    · exact known_setPeer r _ member
  · exact known_setPeer r _ member

end Relay

end GameRelay
