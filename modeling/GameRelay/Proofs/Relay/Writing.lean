import GameRelay.Proofs.Writer
import GameRelay.Proofs.Relay.Custody

/-!
# How the writer of a connection comes out

Whatever is done with a relay, the close marker is the last thing that waits in an outbox, and only
when the connection is not open any more. So the writer of a connection hands over what waits up to
the first call of its socket that fails, or all of it. A failed call costs the item in hand and
nothing else; whether the connection is closed by it depends on the kind of failure.
-/

set_option autoImplicit false
set_option relaxedAutoImplicit false

namespace GameRelay

/-- Only the last thing that waits for a connection may be the close marker, and then the connection
is not open. -/
structure Connection.Orderly (c : Connection) : Prop where
  last : .close ∉ c.outbox.items.dropLast
  shut : .close ∈ c.outbox.items → c.isOpen = false

namespace Connection

theorem orderly_new (id : String) (capacity : Int) : (Connection.new id capacity).Orderly :=
  ⟨nofun, nofun⟩

namespace Orderly

variable {c d : Connection} (orderly : c.Orderly)
include orderly

theorem of_push {item : Item} (isOpen : c.isOpen) (outbox : d.outbox = c.outbox.push item)
    (closes : item = .close → d.isOpen = false) : d.Orderly := by
  have unmarked : .close ∉ c.outbox.items := fun marked =>
    Bool.false_ne_true ((orderly.shut marked).symm.trans isOpen)
  have before : .close ∉ if c.outbox.isFull then c.outbox.items.tail else c.outbox.items := by
    split
    · exact fun marked => unmarked (List.mem_of_mem_tail marked)
    · exact unmarked
  have items : d.outbox.items = c.outbox.itemsAfter item := congrArg Outbox.items outbox
  constructor
  · rwa [items, Outbox.itemsAfter, List.dropLast_concat]
  · rw [items, Outbox.itemsAfter, List.mem_append, List.mem_singleton]
    rintro (marked | same)
    · exact absurd marked before
    · exact closes same.symm

theorem of_suffix (part : d.outbox.items <:+ c.outbox.items)
    (stays : c.isOpen = false → d.isOpen = false) : d.Orderly := by
  obtain ⟨taken, split⟩ := part
  constructor
  · by_cases none : d.outbox.items = []
    · simp [none]
    · intro marked
      apply orderly.last
      rw [← split, List.dropLast_append_of_ne_nil none]
      exact List.mem_append_right taken marked
  · intro marked
    exact stays (orderly.shut (split ▸ List.mem_append_right taken marked))

theorem offered (m : Message) : (c.offered m).Orderly := by
  unfold Connection.offered
  split
  · exact orderly.of_push ‹_› rfl nofun
  · exact orderly

theorem closed : c.closed.Orderly := by
  by_cases isOpen : c.isOpen
  · exact orderly.of_push isOpen (outbox_closed_of_open isOpen) fun _ => c.isOpen_closed
  · rwa [Connection.closed, if_neg isOpen]

theorem written (socket : Nat → CallOutcome) (held : Option Item) :
    (c.written socket held).Orderly := by
  obtain ⟨taken, split, _⟩ := Writer.taken_run_queue socket held c.outbox.items
  refine orderly.of_suffix ⟨taken, ?_⟩ (isOpen_written_of_shut socket held)
  rw [outbox_written]
  exact split

end Orderly

end Connection

/-- Something that is done with a relay: a call, or a message that is sent to a connection from
elsewhere, or all messages that wait for one are taken away. -/
inductive Dealing
  | call (call : Call)
  | send (h : Handle) (m : Message)
  | drain (h : Handle)

def Dealing.action : Dealing → Action Unit
  | .call c => c.action
  | .send h m => Relay.send h m
  | .drain h => do let _ ← Relay.drain h

namespace Relay

def dealt (r : Relay) (d : Dealing) : Relay :=
  match d.action.run r with
  | .ok _ next | .error _ next => next

def dealtAll (r : Relay) (ds : List Dealing) : Relay := ds.foldl dealt r

/-- A dealing is possible: its call can be made, or it is about somebody who has come. -/
def Possible (r : Relay) : Dealing → Prop
  | .call call => r.Admissible call
  | .send h _ | .drain h => h ∈ r.known

def AllPossible (r : Relay) : List Dealing → Prop
  | [] => True
  | d :: rest => r.Possible d ∧ AllPossible (r.dealt d) rest

instance (r : Relay) : (d : Dealing) → Decidable (r.Possible d)
  | .call call => inferInstanceAs (Decidable (r.Admissible call))
  | .send h _ | .drain h => inferInstanceAs (Decidable (h ∈ r.known))

instance decidableAllPossible (r : Relay) : (ds : List Dealing) → Decidable (r.AllPossible ds)
  | [] => .isTrue trivial
  | d :: rest =>
    have := decidableAllPossible (r.dealt d) rest
    inferInstanceAs (Decidable (r.Possible d ∧ (r.dealt d).AllPossible rest))

private theorem dealt_send (r : Relay) (h : Handle) (m : Message) :
    r.dealt (.send h m) = if (r.peer h).isOpen then r.accepted h (.message m) else r := by
  have run : (Dealing.send h m).action.run r = _ := r.run_send h m
  by_cases isOpen : (r.peer h).isOpen
  · rw [dealt, run, if_pos isOpen, if_pos isOpen]
  · rw [dealt, run, if_neg isOpen, if_neg isOpen]

private theorem dealt_drain (r : Relay) (h : Handle) :
    r.dealt (.drain h) =
      r.setPeer h { r.peer h with outbox := (r.peer h).outbox.clear } := rfl

private theorem orderly_of_turn {r : Relay} {k : Handle} {asked : Option Call} {c : Connection}
    (turn : r.Turn k asked c) (orderly : (r.peer k).Orderly) : c.Orderly := by
  have seated (role : Role) (room : Option String) :
      { r.peer k with role, room }.Orderly := ⟨orderly.last, orderly.shut⟩
  cases turn with
  | idle => exact orderly
  | opened code role free => exact (seated .host (some code)).offered _
  | seated seat room role live => exact (seated seat.role (some room.code)).offered _
  | released h room role own live member => exact (seated (r.peer k).role none).closed
  | closed => exact orderly.closed
  | detached => exact ⟨orderly.last, fun _ => rfl⟩
  | written socket held => exact orderly.written socket held
  | _ => exact orderly.offered _

/-- Rooms and connections fit together, and the outboxes of all connections are orderly. -/
structure InOrder (r : Relay) : Prop where
  settled : r.Settled
  orderly : ∀ k, (r.peer k).Orderly

theorem inOrder_initial (codes : CodeSource) : (initial codes).InOrder where
  settled := settled_initial codes
  orderly _ := Connection.orderly_new "" defaultCapacity

namespace InOrder

variable {r : Relay} (inOrder : r.InOrder)
include inOrder

theorem after {call : Call} (admissible : r.Admissible call) : (r.after call).InOrder where
  settled := settled_after inOrder.settled admissible
  orderly k := by
    by_cases known : k ∈ r.known
    · exact orderly_of_turn (turn_after inOrder.settled admissible known) (inOrder.orderly k)
    · obtain ⟨id, capacity, new⟩ := new_of_not_known inOrder.settled admissible known
      exact new ▸ Connection.orderly_new id capacity

theorem of_changed {next : Relay} {h : Handle} {c : Connection}
    (peer : ∀ k, next.peer k = if k = h then c else r.peer k) (rooms : next.rooms = r.rooms)
    (known : next.known = r.known) (standing : c.standing = (r.peer h).standing)
    (id : c.id = (r.peer h).id) (orderly : c.Orderly) : next.InOrder := by
  have settled := inOrder.settled
  have stands (k : Handle) : (next.peer k).standing = (r.peer k).standing := by
    rw [peer]
    split
    · subst k
      exact standing
    · rfl
  have named : next.idOf = r.idOf := by
    funext k
    rw [idOf, peer]
    split
    · subst k
      exact id
    · rfl
  constructor
  · refine ⟨rooms ▸ settled.keys, ?_, ?_, ?_⟩
    · intro code room live
      rw [rooms] at live
      exact (settled.fits live).of_standing (fun k old => known ▸ old) fun k _ => stands k
    · intro k role
      obtain ⟨role', room'⟩ := Prod.ext_iff.mp (stands k)
      exact room'.trans (settled.unassigned k (role'.symm.trans role))
    · rw [known, named]
      exact settled.ids
  · intro k
    rw [peer]
    split
    · exact orderly
    · exact inOrder.orderly k

theorem dealt {d : Dealing} (possible : r.Possible d) : (r.dealt d).InOrder := by
  cases d with
  | call call => exact inOrder.after possible
  | send h m =>
    rw [dealt_send]
    split
    · refine inOrder.of_changed (r.peer_accepted h · _) (r.rooms_accepted h _)
        (r.known_accepted _ possible) rfl rfl ?_
      exact (inOrder.orderly h).of_push ‹_› rfl nofun
    · exact inOrder
  | drain h =>
    rw [dealt_drain]
    refine inOrder.of_changed (r.peer_setPeer h · _) rfl (r.known_setPeer _ possible) rfl rfl ?_
    exact (inOrder.orderly h).of_suffix (List.nil_suffix) id

theorem dealtAll {ds : List Dealing} (possible : r.AllPossible ds) : (r.dealtAll ds).InOrder := by
  induction ds generalizing r with
  | nil => exact inOrder
  | cons d rest ih => exact ih (inOrder.dealt possible.1) possible.2

end InOrder

/-- A call of the socket has failed: the writer has handed over all messages before it, the item in
hand is lost, the others still wait, and no call comes after it. -/
structure StopsAt (r next : Relay) (h : Handle) (socket : Nat → CallOutcome) (run : Writer.Run)
    (call : Nat) (fault : SocketFault) : Prop where
  written : run.written = ((Writer.ahead (r.peer h).outbox.items).take call).map .message
  left : (next.peer h).outbox.items = (r.peer h).outbox.items.drop (call + 1)
  /-- Whatever the socket would make of later calls comes to the same. -/
  uncalled : ∀ other : Nat → CallOutcome, (∀ j ≤ call, other j = socket j) →
    (runWriter h other none).run r = .ok run next
  caught : fault.isExpected → run.ending.verdict = .returns ∧ (next.peer h).isOpen = false
  raised : fault.isExpected = false →
    run.ending.verdict = .raises fault ∧ (next.peer h).isOpen = (r.peer h).isOpen

/-- No call of the socket has failed: the writer has handed over all that waited. It is done when it
has closed the socket, and waits otherwise. -/
structure Finishes (r next : Relay) (h : Handle) (run : Writer.Run) : Prop where
  written : run.written = (Writer.ahead (r.peer h).outbox.items).map .message ++
    if .close ∈ (r.peer h).outbox.items then [.close 1000] else []
  verdict : run.ending.verdict = if .close ∈ (r.peer h).outbox.items then .returns else .waits
  emptied : (next.peer h).outbox.items = []
  isOpen : (next.peer h).isOpen = (r.peer h).isOpen

/-- How the writer of a connection comes out on a socket whose calls are accepted until one of them
fails. -/
structure Delivers (r next : Relay) (h : Handle) (socket : Nat → CallOutcome) (run : Writer.Run) :
    Prop where
  runs : (runWriter h socket none).run r = .ok run next
  stops : ∀ call fault, Writer.Due (r.peer h).outbox.items call →
    (∀ j < call, socket j = .accepted) → socket call = .failed fault →
      r.StopsAt next h socket run call fault
  finishes : (∀ call, Writer.Due (r.peer h).outbox.items call → socket call = .accepted) →
    r.Finishes next h run
  dropped : (next.peer h).outbox.dropped = (r.peer h).outbox.dropped
  standing : (next.peer h).role = (r.peer h).role ∧ (next.peer h).room = (r.peer h).room
  others : ∀ k, k ≠ h → next.peer k = r.peer k
  rooms : next.rooms = r.rooms

private theorem written_congr (r : Relay) {h : Handle} {held : Option Item}
    {one two : Nat → CallOutcome}
    (same : Writer.run one 0 (Writer.queue held (r.peer h).outbox.items) =
      Writer.run two 0 (Writer.queue held (r.peer h).outbox.items)) :
    r.written h one held = r.written h two held := by
  simp only [written, Outbox.afterRun, same]

private theorem stopsAt (r : Relay) {h : Handle} {socket : Nat → CallOutcome} {call : Nat}
    {fault : SocketFault} (due : Writer.Due (r.peer h).outbox.items call)
    (accepted : ∀ j < call, socket j = .accepted) (failed : socket call = .failed fault) :
    r.StopsAt (r.written h socket none) h socket (Writer.run socket 0 (r.peer h).outbox.items)
      call fault := by
  have run := Writer.run_of_failed due accepted failed
  have peer : (r.written h socket none).peer h = (r.peer h).written socket none :=
    r.peer_written_self h socket none
  have isOpen : ((r.peer h).written socket none).isOpen =
      ((r.peer h).isOpen && !fault.isExpected) := by
    have ending : (Writer.run socket 0 (Writer.queue none (r.peer h).outbox.items)).ending =
        .failed fault := congrArg Writer.Run.ending run
    rw [Connection.written, ending]
  refine ⟨by rw [run], ?_, ?_, ?_, ?_⟩
  · rw [peer, Connection.outbox_written]
    exact congrArg Writer.Run.left run
  · intro other agree
    have before : ∀ j < call, other j = .accepted := fun j less =>
      (agree j (Nat.le_of_lt less)).trans (accepted j less)
    have again := Writer.run_of_failed due before ((agree call (Nat.le_refl _)).trans failed)
    have same := again.trans run.symm
    have next : r.written h other none = r.written h socket none := r.written_congr same
    rw [run_runWriter, next]
    exact congrArg (EStateM.Result.ok · _) same
  · intro expected
    rw [run, peer, isOpen, expected]
    exact ⟨if_pos expected, Bool.and_false _⟩
  · intro unexpected
    rw [run, peer, isOpen, unexpected]
    exact ⟨if_neg (Bool.eq_false_iff.mp unexpected), Bool.and_true _⟩

theorem finishes {r : Relay} {h : Handle} (orderly : (r.peer h).Orderly)
    {socket : Nat → CallOutcome}
    (accepted : ∀ call, Writer.Due (r.peer h).outbox.items call → socket call = .accepted) :
    r.Finishes (r.written h socket none) h (Writer.run socket 0 (r.peer h).outbox.items) := by
  have run := Writer.run_of_accepted orderly.last accepted
  have peer : (r.written h socket none).peer h = (r.peer h).written socket none :=
    r.peer_written_self h socket none
  have left : ((r.peer h).written socket none).outbox.items =
      (Writer.run socket 0 (r.peer h).outbox.items).left := by
    rw [Connection.outbox_written]
    rfl
  have isOpen (unfailing : ∀ fault,
      (Writer.run socket 0 (r.peer h).outbox.items).ending ≠ .failed fault) :
      ((r.peer h).written socket none).isOpen = (r.peer h).isOpen := by
    unfold Connection.written
    split
    · exact absurd ‹_› (unfailing _)
    · rfl
  refine ⟨?_, ?_, ?_, ?_⟩
  · rw [run]
    split <;> simp [normalClosure]
  · rw [run]
    split <;> rfl
  · rw [peer, left, run]
    split <;> rfl
  · rw [peer]
    apply isOpen
    intro fault
    rw [run]
    split <;> exact nofun

/-- Whatever was done with a relay: the writer of a connection hands over, loses and leaves exactly
what the first failing call of its socket makes it. -/
theorem delivers_dealtAll (codes : CodeSource) (ds : List Dealing)
    (possible : (initial codes).AllPossible ds) (h : Handle) (socket : Nat → CallOutcome) :
    ∃ run next, ((initial codes).dealtAll ds).Delivers next h socket run := by
  have orderly := ((inOrder_initial codes).dealtAll possible).orderly h
  generalize (initial codes).dealtAll ds = r at orderly ⊢
  have peer : (r.written h socket none).peer h = (r.peer h).written socket none :=
    r.peer_written_self h socket none
  have standing : ((r.written h socket none).peer h).standing = (r.peer h).standing := by
    rw [peer, Connection.standing_written]
  refine ⟨_, _, {
    runs := r.run_runWriter h socket none
    stops := fun call fault => r.stopsAt
    finishes := finishes orderly
    dropped := by
      rw [peer, Connection.outbox_written]
      rfl
    standing := Prod.ext_iff.mp standing
    others := fun k other => (r.peer_written h k socket none).trans (if_neg other)
    rooms := r.rooms_written h socket none }⟩

/-- A host and a player to whom a message was sent from elsewhere; then the host's session ends. -/
def backlog : List Dealing :=
  [.call (.arrive 0 "h" 4), .call (.arrive 1 "p" 3), .call (.host 0),
    .call (.seat .player 1 (some "a")), .drain 1, .send 1 (.error "e"),
    .call (.input 0 (.bool true)), .call (.disconnect 0)]

/-- The host's peer vanishes at the second message, and the player's socket fails in an unexpected
way when it is to be closed. -/
theorem delivers_after_backlog :
    let r := (initial (.listed ["a"])).dealtAll backlog
    let vanishing := Writer.socketFailing (some (1, .peerGone))
    let failing := Writer.socketFailing (some (2, .unexpected "boom"))
    (initial (.listed ["a"])).AllPossible backlog ∧
      (∃ run next, (runWriter 0 vanishing none).run r = .ok run next ∧
        run.written = [.message (.roomCreated "a")] ∧ run.ending.verdict = .returns ∧
        (next.peer 0).outbox.items = [] ∧ (next.peer 0).isOpen = false) ∧
      ∃ run next, (runWriter 1 failing none).run r = .ok run next ∧
        run.written = [.message (.error "e"), .message (.state (.bool true))] ∧
        run.ending.verdict = .raises (.unexpected "boom") ∧ (next.peer 1).outbox.items = [] := by
  intro r vanishing failing
  have possible : (initial (.listed ["a"])).AllPossible backlog := by decide +kernel
  have host : (r.peer 0).outbox.items =
      [.message (.roomCreated "a"), .message (.playerJoined "p")] := by decide +kernel
  have player : (r.peer 1).outbox.items =
      [.message (.error "e"), .message (.state (.bool true)), .close] := by decide +kernel
  refine ⟨possible, ?_, ?_⟩
  · obtain ⟨run, next, delivers⟩ := delivers_dealtAll (.listed ["a"]) backlog possible 0 vanishing
    have stops := delivers.stops 1 .peerGone (.inl (by rw [host]; decide)) (by decide) rfl
    obtain ⟨returns, shut⟩ := stops.caught rfl
    have written := stops.written
    have left := stops.left
    rw [host] at written left
    exact ⟨run, next, delivers.runs, written, returns, left, shut⟩
  · obtain ⟨run, next, delivers⟩ := delivers_dealtAll (.listed ["a"]) backlog possible 1 failing
    have due : Writer.Due (r.peer 1).outbox.items 2 := .inr (by rw [player]; decide)
    have stops := delivers.stops 2 (.unexpected "boom") due (by decide) rfl
    have written := stops.written
    have left := stops.left
    rw [player] at written left
    exact ⟨run, next, delivers.runs, written, (stops.raised rfl).1, left⟩

end Relay

end GameRelay
