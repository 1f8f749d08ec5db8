import GameRelay.Proofs.Relay.Shifts

/-!
# Where relayed messages come from

An outbox counts what it pushes out, so two of its states tell what came into it in between. Every
input, state or news of a player that ever came into the outbox of a connection was caused by a
call of its own, made in the room that the connection was in at that moment. Later rooms under the
same code do not come into it.
-/

set_option autoImplicit false
set_option relaxedAutoImplicit false

namespace GameRelay

namespace Outbox

theorem isFull_iff (o : Outbox) :
    o.isFull ↔ 0 < o.capacity ∧ o.capacity ≤ (o.items.length : Int) := by
  simp [isFull]

/-- The number of items that have come and were not taken, whether or not they still wait. -/
def seen (o : Outbox) : Nat := o.dropped + o.items.length

/-- The items that have come into an outbox since an earlier state of it. -/
def gained (earlier later : Outbox) : List Item :=
  later.items.drop (later.items.length - (later.seen - earlier.seen))

@[simp] theorem gained_self (o : Outbox) : o.gained o = [] := by
  simp [gained]

private theorem seen_push (o : Outbox) (item : Item) : (o.push item).seen = o.seen + 1 := by
  by_cases full : o.isFull
  · have reached := o.isFull_iff.mp full
    simp only [seen, push, itemsAfter, full, if_true, List.length_append, List.length_tail,
      List.length_singleton]
    omega
  · simp only [seen, push, itemsAfter, full, Bool.false_eq_true, if_false, List.length_append,
      List.length_singleton]
    omega

@[simp] theorem gained_push (o : Outbox) (item : Item) : o.gained (o.push item) = [item] := by
  have one : (o.push item).seen - o.seen = 1 := by
    rw [seen_push]
    omega
  have items : (o.push item).items = o.itemsAfter item := rfl
  rw [gained, one, items, itemsAfter, List.length_append, List.length_singleton,
    Nat.add_sub_cancel, List.drop_left]

@[simp] theorem gained_afterRun (o : Outbox) (socket : Nat → CallOutcome) (held : Option Item) :
    o.gained (o.afterRun socket held) = [] := by
  have fewer := Writer.length_left_run_queue_le socket held o.items
  have none : (o.afterRun socket held).seen - o.seen = 0 := by
    simp only [seen, afterRun]
    omega
  rw [gained, none, Nat.sub_zero, List.drop_length]

end Outbox

/-- Messages that are not answers to a request of the connection itself. -/
def Message.isTraffic : Message → Bool
  | .roomCreated _ | .seated .. | .error _ => false
  | _ => true

namespace Connection

def gained (earlier later : Connection) : List Item := earlier.outbox.gained later.outbox

/-- The traffic among them. -/
def heard (earlier later : Connection) : List Message :=
  ((earlier.gained later).filterMap Item.message?).filter Message.isTraffic

@[simp] theorem gained_self (c : Connection) : c.gained c = [] := c.outbox.gained_self

theorem gained_offered {c d : Connection} (m : Message) (same : d.outbox = c.outbox) :
    c.gained (d.offered m) = if d.isOpen then [.message m] else [] := by
  unfold offered gained
  split
  · rw [← same]
    exact Outbox.gained_push d.outbox (.message m)
  · rw [same, Outbox.gained_self]

private theorem outbox_offered {c d : Connection} (m : Message) (same : d.outbox = c.outbox) :
    (d.offered m).outbox = (c.gained (d.offered m)).foldl Outbox.push c.outbox := by
  rw [gained_offered m same, offered]
  split
  · rw [← same]
    rfl
  · exact same

theorem gained_closed {c d : Connection} (same : d.outbox = c.outbox) :
    c.gained d.closed = if d.isOpen then [.close] else [] := by
  unfold closed gained
  split
  · rw [← same]
    exact Outbox.gained_push d.outbox .close
  · rw [same, Outbox.gained_self]

theorem outbox_closed {c d : Connection} (same : d.outbox = c.outbox) :
    d.closed.outbox = (c.gained d.closed).foldl Outbox.push c.outbox := by
  rw [gained_closed same, closed]
  split
  · rw [← same]
    rfl
  · exact same

theorem gained_written (c : Connection) (socket : Nat → CallOutcome) (held : Option Item) :
    c.gained (c.written socket held) = [] := by
  rw [gained, outbox_written, Outbox.gained_afterRun]

theorem heard_of_gained_nil {c d : Connection} (none : c.gained d = []) : c.heard d = [] := by
  rw [heard, none]
  rfl

private theorem heard_offered {c d : Connection} (m : Message) (same : d.outbox = c.outbox) :
    c.heard (d.offered m) = [] ∨ c.heard (d.offered m) = [m] := by
  rw [heard, gained_offered m same]
  cases d.isOpen with
  | false => exact .inl rfl
  | true => cases traffic : m.isTraffic <;> simp [Item.message?, traffic]

theorem heard_answered {c d : Connection} {m : Message} (same : d.outbox = c.outbox)
    (answer : m.isTraffic = false) : c.heard (d.offered m) = [] := by
  rw [heard, gained_offered m same]
  cases d.isOpen with
  | false => rfl
  | true => simp [Item.message?, answer]

theorem heard_closed {c d : Connection} (same : d.outbox = c.outbox) : c.heard d.closed = [] := by
  rw [heard, gained_closed same]
  cases d.isOpen <;> rfl

end Connection

namespace Relay

/-- Nothing comes into an outbox unnoticed: putting in what was gained leads from the old outbox to
the new one, unless the writer of the connection ran. -/
theorem outbox_after {r : Relay} (settled : r.Settled) {call : Call}
    (admissible : r.Admissible call) {q : Handle} (known : q ∈ r.known)
    (silent : ∀ socket held, call ≠ .write q socket held) :
    ((r.after call).peer q).outbox =
      ((r.peer q).gained ((r.after call).peer q)).foldl Outbox.push (r.peer q).outbox := by
  have turn := turn_after settled admissible known
  generalize asks : r.asked call = asked at turn
  generalize (r.after call).peer q = c at turn ⊢
  cases turn with
  | idle => rw [Connection.gained_self, List.foldl_nil]
  | released => exact Connection.outbox_closed rfl
  | closed => exact Connection.outbox_closed rfl
  | detached => rw [Connection.gained, Outbox.gained_self, List.foldl_nil]
  | written socket held => exact absurd (eq_of_asked asks rfl) (silent socket held)
  | _ => exact Connection.outbox_offered _ rfl

theorem gained_of_turn_not_open {r : Relay} {k : Handle} {asked : Option Call} {c : Connection}
    (turn : r.Turn k asked c) (shut : (r.peer k).isOpen = false) : (r.peer k).gained c = [] := by
  have never : ¬(r.peer k).isOpen := by simp [shut]
  cases turn with
  | idle => exact Connection.gained_self _
  | released h room role own live member =>
    exact (Connection.gained_closed rfl).trans (if_neg never)
  | closed => exact (Connection.gained_closed rfl).trans (if_neg never)
  | detached => exact (r.peer k).outbox.gained_self
  | written socket held => exact Connection.gained_written _ socket held
  | _ => exact (Connection.gained_offered _ rfl).trans (if_neg never)

theorem new_of_not_known {r : Relay} (settled : r.Settled) {call : Call}
    (admissible : r.Admissible call) {q : Handle} (unknown : q ∉ r.known) :
    ∃ id capacity, (r.after call).peer q = .new id capacity := by
  by_cases later : q ∈ (r.after call).known
  · rw [known_after settled admissible] at later
    have newcomer := (List.mem_append.mp later).resolve_left unknown
    cases call with
    | arrive h id capacity =>
      obtain rfl := List.mem_singleton.mp newcomer
      exact ⟨id, capacity, peer_setPeer_self r q (.new id capacity)⟩
    | _ => cases newcomer
  · exact ⟨"", defaultCapacity, peer_of_not_known later⟩

theorem gained_of_not_known {r : Relay} (settled : r.Settled) {call : Call}
    (admissible : r.Admissible call) {q : Handle} (unknown : q ∉ r.known) :
    (r.peer q).gained ((r.after call).peer q) = [] := by
  obtain ⟨id, capacity, new⟩ := new_of_not_known settled admissible unknown
  rw [new]
  exact List.drop_nil

def traffic (r : Relay) (q : Handle) : List Call → List Message
  | [] => []
  | call :: rest => (r.peer q).heard ((r.after call).peer q) ++ traffic (r.after call) q rest

/-- A call is the reason why a message comes to a connection, by way of a room that is live when
the call is made. -/
inductive Origin (r : Relay) (call : Call) (q : Handle) : Message → Prop
  | input (h : Handle) (payload : Json.Value) (room : Room)
      (asks : r.asked call = some (.input h payload))
      (live : Table.find? r.rooms room.code = some room) (host : room.host = q)
      (member : h ∈ room.players) : Origin r call q (.input (r.idOf h) payload)
  | state (h : Handle) (payload : Json.Value) (room : Room)
      (asks : r.asked call = some (.input h payload))
      (live : Table.find? r.rooms room.code = some room) (host : room.host = h)
      (member : q ∈ room.members) : Origin r call q (.state payload)
  | playerJoined (h : Handle) (room : Room)
      (asks : r.asked call = some (.seat .player h (some room.code)))
      (live : Table.find? r.rooms room.code = some room) (host : room.host = q)
      (outside : h ∉ r.housed)
      (joins : Table.find? (r.after call).rooms room.code = some (room.admitted .player h)) :
    Origin r call q (.playerJoined (r.idOf h))

theorem after_seat {r : Relay} (filed : r.Filed) {call : Call} {seat : Seat} {h : Handle}
    {code : String} {room : Room} (asks : r.asked call = some (.seat seat h (some code)))
    (role : (r.peer h).role = .unassigned) (live : Table.find? r.rooms code = some room) :
    r.after call = r.seated seat h room := by
  have effect := effect_after filed call
  rw [asks] at effect
  generalize r.after call = next at effect ⊢
  cases effect with
  | rejectedSeat _ _ _ assigned => exact absurd role assigned
  | refused _ _ _ _ unknown => cases live.symm.trans unknown
  | seated _ _ target _ found =>
    cases live.symm.trans found
    rfl

theorem find?_after_seat {r : Relay} (filed : r.Filed) {call : Call} {seat : Seat} {h : Handle}
    {code : String} {room : Room} (asks : r.asked call = some (.seat seat h (some code)))
    (role : (r.peer h).role = .unassigned) (live : Table.find? r.rooms code = some room) :
    Table.find? (r.after call).rooms code = some (room.admitted seat h) := by
  rw [after_seat filed asks role live, rooms_seated, filed code room live]
  exact Table.find?_put_self r.rooms code _

/-- A call that brings traffic to a connection that has come before is the reason for it. -/
private theorem origin_of_turn {r : Relay} (settled : r.Settled) {call : Call} {q : Handle}
    (turn : r.Turn q (r.asked call) ((r.after call).peer q)) :
    (r.peer q).heard ((r.after call).peer q) = [] ∨
      ∃ m, (r.peer q).heard ((r.after call).peer q) = [m] ∧ r.Origin call q m := by
  have outside {h : Handle} (role : (r.peer h).role = .unassigned) : h ∉ r.housed := by
    intro within
    obtain ⟨_, _, live, inside⟩ := settled.mem_housed.mp within
    exact settled.not_mem_of_unassigned live role inside
  have brings {m : Message} (origin : r.Origin call q m) :
      (r.peer q).heard ((r.peer q).offered m) = [] ∨
        ∃ m', (r.peer q).heard ((r.peer q).offered m) = [m'] ∧ r.Origin call q m' := by
    rcases Connection.heard_offered (c := r.peer q) m rfl with none | one
    · exact .inl none
    · exact .inr ⟨m, one, origin⟩
  generalize asks : r.asked call = asked at turn
  generalize (r.after call).peer q = c at turn ⊢
  cases turn with
  | idle => exact .inl (Connection.heard_of_gained_nil (Connection.gained_self _))
  | rejectedHost role => exact .inl (Connection.heard_answered rfl rfl)
  | opened code role free => exact .inl (Connection.heard_answered rfl rfl)
  | rejectedSeat seat requested role => exact .inl (Connection.heard_answered rfl rfl)
  | refused seat requested role unknown => exact .inl (Connection.heard_answered rfl rfl)
  | seated seat room role live => exact .inl (Connection.heard_answered rfl rfl)
  | announced h room role live host =>
    exact brings (.playerJoined h room asks live host (outside role)
      (find?_after_seat settled.filed asks role live))
  | playerInput h payload room live member host =>
    exact brings (.input h payload room asks live host member)
  | hostInput h payload room live host member =>
    exact brings (.state h payload room asks live host member)
  | released h room role own live member => exact .inl (Connection.heard_closed rfl)
  | closed => exact .inl (Connection.heard_closed rfl)
  | detached => exact .inl (Connection.heard_of_gained_nil (r.peer q).outbox.gained_self)
  | written socket held =>
    exact .inl (Connection.heard_of_gained_nil (Connection.gained_written _ socket held))

/-- Traffic that a call brings to any connection has the call as its reason. -/
theorem origin_of_heard {r : Relay} (settled : r.Settled) {call : Call}
    (admissible : r.Admissible call) (q : Handle) :
    (r.peer q).heard ((r.after call).peer q) = [] ∨
      ∃ m, (r.peer q).heard ((r.after call).peer q) = [m] ∧ r.Origin call q m := by
  by_cases known : q ∈ r.known
  · exact origin_of_turn settled (turn_after settled admissible known)
  · exact .inl (Connection.heard_of_gained_nil (gained_of_not_known settled admissible known))

/-- Some calls of a run, in its order and without repetition, cause some messages one by one. -/
def Caused (r : Relay) (q : Handle) (calls : List Call) (messages : List Message) : Prop :=
  ∃ causes : List Nat, causes.Pairwise (· < ·) ∧
    List.Forall₂ (fun i m => ∃ call, calls[i]? = some call ∧
      (r.afterAll (calls.take i)).Origin call q m) causes messages

private theorem caused_cons {r : Relay} {q : Handle} {call : Call} {rest : List Call}
    {messages : List Message} (later : (r.after call).Caused q rest messages) :
    r.Caused q (call :: rest) messages ∧
      ∀ m, r.Origin call q m → r.Caused q (call :: rest) (m :: messages) := by
  obtain ⟨causes, increasing, origins⟩ := later
  have order : (causes.map (· + 1)).Pairwise (· < ·) := by
    refine List.pairwise_map.mpr (increasing.imp ?_)
    intro i j less
    exact Nat.succ_lt_succ less
  have shifted : List.Forall₂ (fun i m => ∃ cause, (call :: rest)[i]? = some cause ∧
      (r.afterAll ((call :: rest).take i)).Origin cause q m) (causes.map (· + 1)) messages :=
    List.forall₂_map_left_iff.mpr origins
  refine ⟨⟨_, order, shifted⟩, ?_⟩
  intro m origin
  refine ⟨0 :: causes.map (· + 1), List.pairwise_cons.mpr ⟨?_, order⟩,
    .cons ⟨call, rfl, origin⟩ shifted⟩
  intro i member
  obtain ⟨_, _, rfl⟩ := List.mem_map.mp member
  exact Nat.succ_pos _

private theorem traffic_caused_from {r : Relay} (settled : r.Settled) (q : Handle)
    {calls : List Call} (proper : r.Proper calls) : r.Caused q calls (r.traffic q calls) := by
  induction calls generalizing r with
  | nil => exact ⟨[], .nil, .nil⟩
  | cons call rest ih =>
    obtain ⟨admissible, proper⟩ := proper
    obtain ⟨skipped, caused⟩ := caused_cons (ih (settled_after settled admissible) proper)
    rw [traffic]
    rcases origin_of_heard settled admissible q with none | ⟨m, one, origin⟩
    · rw [none]
      exact skipped
    · rw [one]
      exact caused m origin

/-- Whatever calls are made in whatever order, and whatever codes the rooms get: the inputs, states
and news of players that ever came into the outbox of a connection were caused one by one, in
order, by calls in the rooms that it was in at the time. -/
theorem traffic_caused (codes : CodeSource) (calls : List Call)
    (proper : (initial codes).Proper calls) (q : Handle) :
    (initial codes).Caused q calls ((initial codes).traffic q calls) :=
  traffic_caused_from (settled_initial codes) q proper

/-- The second host of a code hears of its own player only. -/
theorem traffic_caused_in_reuse :
    (initial (.listed ["a", "a"])).Proper reuse ∧
      (initial (.listed ["a", "a"])).traffic 2 reuse = [.playerJoined "s", .input "s" .null] ∧
      (initial (.listed ["a", "a"])).Caused 2 reuse [.playerJoined "s", .input "s" .null] := by
  have traffic : (initial (.listed ["a", "a"])).traffic 2 reuse =
      [.playerJoined "s", .input "s" .null] := by decide +kernel
  have proper : (initial (.listed ["a", "a"])).Proper reuse := by decide +kernel
  exact ⟨proper, traffic, traffic ▸ traffic_caused _ reuse proper 2⟩

end Relay

end GameRelay
