import GameRelay.Proofs.Relay.Sessions
import GameRelay.Proofs.Relay.Traffic

/-!
# How the state of a game reaches a member

A host relays states of its game; a member of its room gets them through its outbox and its writer.
Between the two the states that the writer has in hand and those that wait are, in this order, still
on their way. What is on its way loses items at a full outbox and at a failing socket, gains the
states that are relayed while the member is open, and is never reordered. So what a member has
received is a part of what was relayed to it, and all of it when nothing was lost.
-/

set_option autoImplicit false
set_option relaxedAutoImplicit false

namespace GameRelay

def Message.state? : Message → Option Json.Value
  | .state payload => some payload
  | _ => none

def Item.state? (item : Item) : Option Json.Value := item.message?.bind Message.state?

def Transmission.state? : Transmission → Option Json.Value
  | .message m => m.state?
  | _ => none

/-- The states among some items, in order. -/
def states (items : List Item) : List Json.Value := items.filterMap Item.state?

@[simp] theorem states_nil : states [] = [] := rfl

@[simp] theorem states_append (items later : List Item) :
    states (items ++ later) = states items ++ states later :=
  List.filterMap_append

theorem states_cons (item : Item) (items : List Item) :
    states (item :: items) = item.state?.toList ++ states items := by
  cases carried : item.state? with
  | none => simp [states, carried]
  | some payload => simp [states, carried]

namespace Writer

namespace Ending

def held : Ending → Option Item
  | .holding item => some item
  | _ => none

/-- Whether a writer will not run again. -/
def isOver : Ending → Bool
  | .closed | .failed _ => true
  | _ => false

def isFailure : Ending → Bool
  | .failed _ => true
  | _ => false

end Ending

def Run.states (run : Run) : List Json.Value := run.written.filterMap Transmission.state?

private theorem states_run (socket : Nat → CallOutcome) (call : Nat) (items : List Item) :
    let run := Writer.run socket call items
    (run.states ++ GameRelay.states (run.ending.held.toList ++ run.left)).Sublist
        (GameRelay.states items) ∧
      (run.ending.isFailure = false →
        run.states ++ GameRelay.states (run.ending.held.toList ++ run.left) =
          GameRelay.states items) := by
  induction items generalizing call with
  | nil => exact ⟨List.Sublist.refl _, fun _ => rfl⟩
  | cons item rest ih =>
    rw [run_cons]
    cases socket call with
    | failed fault =>
      refine ⟨?_, nofun⟩
      rw [states_cons]
      exact List.sublist_append_right _ _
    | pending => exact ⟨List.Sublist.refl _, fun _ => rfl⟩
    | accepted =>
      cases item with
      | close => exact ⟨List.Sublist.refl _, fun _ => rfl⟩
      | message m =>
        obtain ⟨part, whole⟩ := ih (call + 1)
        have handed : ({ run socket (call + 1) rest with
            written := (Item.message m).transmission :: (run socket (call + 1) rest).written } :
              Run).states = m.state?.toList ++ (run socket (call + 1) rest).states := by
          cases carried : m.state? with
          | none => simp [Run.states, Item.transmission, Transmission.state?, carried]
          | some payload => simp [Run.states, Item.transmission, Transmission.state?, carried]
        have carried : (Item.message m).state? = m.state? := rfl
        dsimp only at part whole ⊢
        rw [handed, states_cons, carried, List.append_assoc]
        refine ⟨part.append_left _, fun sound => ?_⟩
        rw [whole sound]

end Writer

namespace Outbox

private theorem states_push (o : Outbox) (item : Item) :
    (states (o.push item).items).Sublist (states o.items ++ item.state?.toList) ∧
      ((o.push item).dropped = 0 →
        states (o.push item).items = states o.items ++ item.state?.toList) := by
  have items : (o.push item).items = o.itemsAfter item := rfl
  have dropped : (o.push item).dropped = if o.isFull then o.dropped + 1 else o.dropped := rfl
  have last : states [item] = item.state?.toList := by simp [states_cons]
  rw [items, dropped, itemsAfter, states_append, last]
  by_cases full : o.isFull
  · simp only [full, if_true]
    refine ⟨?_, fun lossless => absurd lossless (Nat.succ_ne_zero _)⟩
    exact ((List.tail_sublist o.items).filterMap _).append_right _
  · simp only [full]
    exact ⟨List.Sublist.refl _, fun _ => rfl⟩

private theorem dropped_le_push (o : Outbox) (item : Item) : o.dropped ≤ (o.push item).dropped := by
  have dropped : (o.push item).dropped = if o.isFull then o.dropped + 1 else o.dropped := rfl
  rw [dropped]
  split <;> omega

theorem dropped_le_pushes (o : Outbox) (items : List Item) :
    o.dropped ≤ (items.foldl push o).dropped := by
  induction items generalizing o with
  | nil => exact Nat.le_refl _
  | cons item rest ih => exact Nat.le_trans (o.dropped_le_push item) (ih (o.push item))

/-- Items that come to an outbox push out the oldest states only. -/
private theorem states_pushes (o : Outbox) (items : List Item) :
    (states (items.foldl push o).items).Sublist (states o.items ++ states items) ∧
      ((items.foldl push o).dropped = 0 →
        states (items.foldl push o).items = states o.items ++ states items) := by
  induction items generalizing o with
  | nil => simp
  | cons item rest ih =>
    obtain ⟨part, whole⟩ := ih (o.push item)
    obtain ⟨first, all⟩ := o.states_push item
    rw [List.foldl_cons, states_cons, ← List.append_assoc]
    refine ⟨part.trans (first.append_right _), fun lossless => ?_⟩
    have early := dropped_le_pushes (o.push item) rest
    rw [whole lossless, all (by omega)]

end Outbox

/-- A writer runs on with what it has in hand, unless it is over. -/
def Call.Continues (m : Handle) (ending : Writer.Ending) : Call → Prop
  | .write h _ held => h = m → ending.isOver = false ∧ held = ending.held
  | _ => True

instance (m : Handle) (ending : Writer.Ending) : (call : Call) → Decidable (call.Continues m ending)
  | .write h _ held =>
    inferInstanceAs (Decidable (h = m → ending.isOver = false ∧ held = ending.held))
  | .arrive .. | .frame .. | .host _ | .seat .. | .input .. | .disconnect _ | .close _ | .detach _
  | .refill _ => .isTrue trivial

namespace Relay

def writerRun? (r : Relay) (m : Handle) : Call → Option Writer.Run
  | .write h socket held =>
    if h = m then
      match (runWriter h socket held).run r with
      | .ok run _ => some run
      | .error _ _ => none
    else none
  | _ => none

def endingAfter (r : Relay) (m : Handle) (ending : Writer.Ending) (call : Call) : Writer.Ending :=
  ((r.writerRun? m call).map Writer.Run.ending).getD ending

def endingAfterAll (r : Relay) (m : Handle) (ending : Writer.Ending) : List Call → Writer.Ending
  | [] => ending
  | call :: rest => (r.after call).endingAfterAll m (r.endingAfter m ending call) rest

/-- Each run of the writer of a connection goes on where the one before it stopped. -/
def Steady (r : Relay) (m : Handle) (ending : Writer.Ending) : List Call → Prop
  | [] => True
  | call :: rest =>
    call.Continues m ending ∧ (r.after call).Steady m (r.endingAfter m ending call) rest

instance decidableSteady (r : Relay) (m : Handle) (ending : Writer.Ending) :
    (calls : List Call) → Decidable (r.Steady m ending calls)
  | [] => .isTrue trivial
  | call :: rest =>
    have := decidableSteady (r.after call) m (r.endingAfter m ending call) rest
    inferInstanceAs (Decidable (call.Continues m ending ∧
      (r.after call).Steady m (r.endingAfter m ending call) rest))

/-- The states that the writer of a connection hands to its socket in a call. -/
def handed (r : Relay) (m : Handle) (call : Call) : List Json.Value :=
  ((r.writerRun? m call).map Writer.Run.states).getD []

/-- The states that the writer of a connection hands to its socket in the course of some calls. -/
def received (r : Relay) (m : Handle) : List Call → List Json.Value
  | [] => []
  | call :: rest => r.handed m call ++ (r.after call).received m rest

/-- A member was sent on all that came for it: its outbox never overflowed and is empty, no call of
its socket has failed, and its writer has nothing in hand. -/
def Lossless (r : Relay) (m : Handle) (calls : List Call) : Prop :=
  ((r.afterAll calls).peer m).outbox.dropped = 0 ∧ ((r.afterAll calls).peer m).outbox.items = [] ∧
    (r.endingAfterAll m .idle calls).isFailure = false ∧
      (r.endingAfterAll m .idle calls).held = none

/-- Somebody is a member of the live room of a host. -/
def HasMember (r : Relay) (host m : Handle) : Prop :=
  ∃ entry ∈ r.rooms, entry.2.host = host ∧ m ∈ entry.2.members

instance (r : Relay) (host m : Handle) : Decidable (r.HasMember host m) :=
  inferInstanceAs (Decidable (∃ entry ∈ r.rooms, entry.2.host = host ∧ m ∈ entry.2.members))

/-- Somebody is an open member of the live room of a host. -/
def HasOpenMember (r : Relay) (host m : Handle) : Prop := r.HasMember host m ∧ (r.peer m).isOpen

instance (r : Relay) (host m : Handle) : Decidable (r.HasOpenMember host m) :=
  inferInstanceAs (Decidable (r.HasMember host m ∧ (r.peer m).isOpen))

/-- The state that a host relays in a call, if a connection is an open member of its room then. -/
def relayed? (r : Relay) (host m : Handle) (call : Call) : Option Json.Value :=
  match r.asked call with
  | some (.input h payload) => if h = host ∧ r.HasOpenMember host m then some payload else none
  | _ => none

/-- The states that a host relays while a connection is an open member of its room. -/
def relayed (r : Relay) (host m : Handle) : List Call → List Json.Value
  | [] => []
  | call :: rest => (r.relayed? host m call).toList ++ (r.after call).relayed host m rest

theorem Settled.hasMember_iff {r : Relay} (settled : r.Settled) {host m : Handle} :
    r.HasMember host m ↔
      ∃ code room, Table.find? r.rooms code = some room ∧ room.host = host ∧ m ∈ room.members := by
  constructor
  · rintro ⟨⟨code, room⟩, member, host, inside⟩
    exact ⟨code, room, Table.find?_of_mem settled.keys member, host, inside⟩
  · rintro ⟨code, room, live, host, inside⟩
    exact ⟨(code, room), Table.mem_of_find? live, host, inside⟩

private theorem after_input_of_host {r : Relay} (settled : r.Settled) {call : Call} {h : Handle}
    {payload : Json.Value} (asks : r.asked call = some (.input h payload)) {code : String}
    {room : Room} (live : Table.find? r.rooms code = some room) (host : room.host = h) :
    r.after call = r.broadcasted room (.state payload) := by
  subst host
  have own := (settled.fits live).code_of_mem List.mem_cons_self
  have found : r.room? (r.peer room.host).room = some room := by
    rw [own]
    exact live
  have held : room.holds r.idOf room.host := by simp [Room.holds]
  rw [after_of_asked asks, after_input, routed, found]
  simp only [held, if_true, (settled.fits live).role_of_host]

/-- All rooms that have somebody as a member have the same host. -/
def BoundTo (r : Relay) (host m : Handle) : Prop :=
  ∀ code room, Table.find? r.rooms code = some room → m ∈ room.members → room.host = host

theorem relayed?_eq_some_iff {r : Relay} {host m : Handle} {call : Call} {payload : Json.Value} :
    r.relayed? host m call = some payload ↔
      r.asked call = some (.input host payload) ∧ r.HasOpenMember host m := by
  unfold relayed?
  generalize r.asked call = asked
  cases asked with
  | none => simp
  | some plain =>
    cases plain with
    | input h given =>
      by_cases holds : h = host ∧ r.HasOpenMember host m
      · simp [holds]
      · simp only [holds, if_false]
        refine iff_of_false nofun ?_
        rintro ⟨⟨⟩, isOpen⟩
        exact holds ⟨rfl, isOpen⟩
    | _ => simp

private theorem isOpen_of_gained {r : Relay} (settled : r.Settled) {call : Call}
    (admissible : r.Admissible call) {m : Handle} {item : Item}
    (member : item ∈ (r.peer m).gained ((r.after call).peer m)) : (r.peer m).isOpen := by
  by_contra shut
  by_cases known : m ∈ r.known
  · have turn := turn_after settled admissible known
    rw [gained_of_turn_not_open turn (by simpa using shut)] at member
    cases member
  · rw [gained_of_not_known settled admissible known] at member
    cases member

/-- What comes to a connection brings it the states that its host relays, and no other. -/
private theorem states_gained {r : Relay} (settled : r.Settled) {call : Call}
    (admissible : r.Admissible call) {host m : Handle} (bound : r.BoundTo host m) :
    states ((r.peer m).gained ((r.after call).peer m)) = (r.relayed? host m call).toList := by
  cases relays : r.relayed? host m call with
  | some payload =>
    obtain ⟨asks, member, isOpen⟩ := relayed?_eq_some_iff.mp relays
    obtain ⟨code, room, live, hosts, inside⟩ := settled.hasMember_iff.mp member
    rw [after_input_of_host settled asks live hosts,
      peer_broadcasted r _ (settled.fits live).nodup_members, if_pos inside,
      Connection.gained_offered _ rfl, if_pos isOpen]
    rfl
  | none =>
    -- a state that comes has been relayed by the host of a room it is in, and that is its host
    refine List.eq_nil_iff_forall_not_mem.mpr fun payload state => ?_
    obtain ⟨item, member, carries⟩ := List.mem_filterMap.mp state
    obtain ⟨m', carried, same⟩ := Option.bind_eq_some_iff.mp carries
    have traffic : .state payload ∈ (r.peer m).heard ((r.after call).peer m) := by
      obtain rfl : m' = .state payload := by
        cases m' <;> cases same
        rfl
      rw [Connection.heard, List.mem_filter, List.mem_filterMap]
      exact ⟨⟨item, member, carried⟩, rfl⟩
    rcases origin_of_heard settled admissible m with nothing | ⟨only, one, origin⟩
    · rw [nothing] at traffic
      cases traffic
    · rw [one, List.mem_singleton] at traffic
      subst traffic
      cases origin with
      | state h _ room asks live hosts inside =>
        obtain rfl := hosts.symm.trans (bound room.code room live inside)
        have holds : r.HasOpenMember h m :=
          ⟨settled.hasMember_iff.mpr ⟨room.code, room, live, hosts, inside⟩,
            isOpen_of_gained settled admissible member⟩
        rw [relayed?_eq_some_iff.mpr ⟨asks, holds⟩] at relays
        cases relays

/-- The states that are on their way to a connection: the one in hand, and those that wait. -/
def onTheWay (r : Relay) (m : Handle) (ending : Writer.Ending) : List Json.Value :=
  states (ending.held.toList ++ (r.peer m).outbox.items)

private theorem writerRun?_write (r : Relay) (m : Handle) (socket : Nat → CallOutcome)
    (held : Option Item) : r.writerRun? m (.write m socket held) =
      some (Writer.run socket 0 (Writer.queue held (r.peer m).outbox.items)) := by
  simp only [writerRun?, if_true, run_runWriter]

theorem writerRun?_of_silent (r : Relay) {m : Handle} {call : Call}
    (silent : ∀ socket held, call ≠ .write m socket held) : r.writerRun? m call = none := by
  cases call with
  | write h socket held =>
    have other : h ≠ m := fun same => silent socket held (same ▸ rfl)
    exact if_neg other
  | _ => rfl

/-- What a call hands over, what is then on its way and what was on its way before: states are lost
at the front only, and those that are relayed join at the end. -/
theorem onTheWay_after {r : Relay} (settled : r.Settled) {call : Call}
    (admissible : r.Admissible call) {host m : Handle} (bound : r.BoundTo host m)
    {ending : Writer.Ending} (continues : call.Continues m ending) :
    (r.handed m call ++ (r.after call).onTheWay m (r.endingAfter m ending call)).Sublist
        (r.onTheWay m ending ++ (r.relayed? host m call).toList) ∧
      (((r.after call).peer m).outbox.dropped = 0 →
        (r.endingAfter m ending call).isFailure = false →
        r.handed m call ++ (r.after call).onTheWay m (r.endingAfter m ending call) =
          r.onTheWay m ending ++ (r.relayed? host m call).toList) := by
  have gains := states_gained settled admissible bound
  -- its own writer takes from the front, every other call adds to the outbox at the end
  by_cases writes : ∃ socket held, call = .write m socket held
  · obtain ⟨socket, held, rfl⟩ := writes
    obtain ⟨_, rfl⟩ := continues rfl
    have none : r.relayed? host m (.write m socket ending.held) = none := rfl
    have left : ((r.after (.write m socket ending.held)).peer m).outbox.items =
        (Writer.run socket 0 (Writer.queue ending.held (r.peer m).outbox.items)).left := by
      rw [after_write, peer_written_self, Connection.outbox_written]
      rfl
    obtain ⟨part, whole⟩ :=
      Writer.states_run socket 0 (Writer.queue ending.held (r.peer m).outbox.items)
    rw [none, Option.toList_none, List.append_nil, handed, onTheWay, onTheWay, endingAfter,
      writerRun?_write, left]
    exact ⟨part, fun _ => whole⟩
  · have silent : ∀ socket held, call ≠ .write m socket held :=
      fun socket held same => writes ⟨socket, held, same⟩
    have none := writerRun?_of_silent r silent
    rw [handed, onTheWay, onTheWay, endingAfter, none]
    dsimp only [Option.map_none, Option.getD_none]
    rw [List.nil_append, states_append, states_append, List.append_assoc, ← gains]
    by_cases known : m ∈ r.known
    · rw [outbox_after settled admissible known silent]
      obtain ⟨part, whole⟩ := (r.peer m).outbox.states_pushes
        ((r.peer m).gained ((r.after call).peer m))
      refine ⟨part.append_left _, fun lossless _ => ?_⟩
      rw [whole lossless]
    · obtain ⟨id, capacity, new⟩ := new_of_not_known settled admissible known
      rw [gained_of_not_known settled admissible known, new, peer_of_not_known known]
      exact ⟨List.Sublist.refl _, fun _ _ => rfl⟩

theorem dropped_le_after {r : Relay} (settled : r.Settled) {call : Call}
    (admissible : r.Admissible call) (m : Handle) :
    (r.peer m).outbox.dropped ≤ ((r.after call).peer m).outbox.dropped := by
  by_cases writes : ∃ socket held, call = .write m socket held
  · obtain ⟨socket, held, rfl⟩ := writes
    rw [after_write, peer_written_self, Connection.outbox_written]
    exact Nat.le_refl _
  · by_cases known : m ∈ r.known
    · rw [outbox_after settled admissible known fun socket held same => writes ⟨socket, held, same⟩]
      exact Outbox.dropped_le_pushes _ _
    · rw [peer_of_not_known known]
      exact Nat.zero_le _

private theorem isFailure_endingAfter (r : Relay) {m : Handle} {ending : Writer.Ending}
    {call : Call} (continues : call.Continues m ending) (failed : ending.isFailure) :
    (r.endingAfter m ending call).isFailure := by
  have ended : ending.isOver := by
    cases ending with
    | failed fault => rfl
    | _ => cases failed
  have silent : ∀ socket held, call ≠ .write m socket held := by
    rintro socket held rfl
    have runs := (continues rfl).1
    rw [ended] at runs
    cases runs
  rw [endingAfter, writerRun?_of_silent r silent]
  exact failed

theorem dropped_le_afterAll {r : Relay} (settled : r.Settled) {calls : List Call}
    (proper : r.Proper calls) (m : Handle) :
    (r.peer m).outbox.dropped ≤ ((r.afterAll calls).peer m).outbox.dropped := by
  induction calls generalizing r with
  | nil => exact Nat.le_refl _
  | cons call rest ih =>
    exact Nat.le_trans (dropped_le_after settled proper.1 m)
      (ih (settled_after settled proper.1) proper.2)

private theorem isFailure_endingAfterAll {r : Relay} {m : Handle} {ending : Writer.Ending}
    {calls : List Call} (steady : r.Steady m ending calls) (failed : ending.isFailure) :
    (r.endingAfterAll m ending calls).isFailure := by
  induction calls generalizing r ending with
  | nil => exact failed
  | cons call rest ih => exact ih steady.2 (isFailure_endingAfter r steady.1 failed)

/-- In the course of calls, too, states are lost at the front only and join at the end. -/
theorem onTheWay_afterAll {r : Relay} (settled : r.Settled) {calls : List Call}
    (proper : r.Proper calls) {host m : Handle}
    (bound : ∀ early, early <+: calls → (r.afterAll early).BoundTo host m)
    {ending : Writer.Ending} (steady : r.Steady m ending calls) :
    (r.received m calls ++ (r.afterAll calls).onTheWay m (r.endingAfterAll m ending calls)).Sublist
        (r.onTheWay m ending ++ r.relayed host m calls) ∧
      (((r.afterAll calls).peer m).outbox.dropped = 0 →
        (r.endingAfterAll m ending calls).isFailure = false →
        r.received m calls ++ (r.afterAll calls).onTheWay m (r.endingAfterAll m ending calls) =
          r.onTheWay m ending ++ r.relayed host m calls) := by
  induction calls generalizing r ending with
  | nil =>
    have same :
        r.received m [] ++ r.onTheWay m ending = r.onTheWay m ending ++ r.relayed host m [] := by
      simp [received, relayed]
    exact ⟨same ▸ List.Sublist.refl _, fun _ _ => same⟩
  | cons call rest ih =>
    obtain ⟨admissible, proper⟩ := proper
    obtain ⟨continues, steady⟩ := steady
    have next := settled_after settled admissible
    obtain ⟨first, all⟩ :=
      onTheWay_after settled admissible (bound [] (List.nil_prefix)) continues
    obtain ⟨part, whole⟩ := ih next proper
      (fun early before => bound (call :: early) (List.cons_prefix_cons.mpr ⟨rfl, before⟩)) steady
    have split :
        r.received m (call :: rest) = r.handed m call ++ (r.after call).received m rest := rfl
    have joined : r.relayed host m (call :: rest) =
        (r.relayed? host m call).toList ++ (r.after call).relayed host m rest := rfl
    rw [split, joined, List.append_assoc, ← List.append_assoc (r.onTheWay m ending)]
    refine ⟨?_, fun lossless sound => ?_⟩
    · have later := part.append_left (r.handed m call)
      rw [← List.append_assoc _ ((r.after call).onTheWay m _)] at later
      exact later.trans (first.append_right _)
    · -- losses stay counted and failures stay known, so there were none in the first call either
      have early : ((r.after call).peer m).outbox.dropped = 0 := by
        have least := dropped_le_afterAll next proper m
        have none : (((r.after call).afterAll rest).peer m).outbox.dropped = 0 := lossless
        omega
      have unharmed : (r.endingAfter m ending call).isFailure = false := by
        by_contra failed
        have fails := isFailure_endingAfterAll steady (by simpa using failed)
        have stays :
            ((r.after call).endingAfterAll m (r.endingAfter m ending call) rest).isFailure =
              false := sound
        rw [stays] at fails
        cases fails
      have later : (r.after call).received m rest ++ (r.afterAll (call :: rest)).onTheWay m
          (r.endingAfterAll m ending (call :: rest)) =
          (r.after call).onTheWay m (r.endingAfter m ending call) ++
            (r.after call).relayed host m rest := whole lossless sound
      rw [later, ← List.append_assoc, all early unharmed]

theorem Settled.boundTo {r : Relay} (settled : r.Settled) {code : String} {room : Room}
    (live : Table.find? r.rooms code = some room) {m : Handle} (member : m ∈ room.members) :
    r.BoundTo room.host m := by
  intro other second also within
  have same := settled.eq_of_mem live also (List.mem_cons_of_mem _ member)
    (List.mem_cons_of_mem _ within)
  rw [same]

theorem boundTo_after {r : Relay} (settled : r.Settled) {call : Call}
    (admissible : r.Admissible call) {host m : Handle} (bound : r.BoundTo host m)
    (assigned : (r.peer m).role ≠ .unassigned) :
    (r.after call).BoundTo host m ∧ ((r.after call).peer m).role ≠ .unassigned := by
  have shift := shift_after settled admissible
  refine ⟨?_, ?_⟩
  · intro code room live member
    obtain ⟨seat, seated⟩ := (room.mem_members m).mp member
    obtain ⟨before, held, hosts, old | ⟨_, fresh⟩⟩ := occupants_of_shift settled shift live seated
    · rw [← hosts]
      exact bound code before held ((before.mem_members m).mpr ⟨seat, old⟩)
    · exact absurd fresh assigned
  · rcases role_of_shift shift m with same | ⟨fresh, _⟩
    · rwa [same]
    · exact absurd fresh assigned

theorem boundTo_afterAll {r : Relay} (settled : r.Settled) {calls : List Call}
    (proper : r.Proper calls) {host m : Handle} (bound : r.BoundTo host m)
    (assigned : (r.peer m).role ≠ .unassigned) : (r.afterAll calls).BoundTo host m := by
  induction calls generalizing r with
  | nil => exact bound
  | cons call rest ih =>
    obtain ⟨bound, assigned⟩ := boundTo_after settled proper.1 bound assigned
    exact ih (settled_after settled proper.1) proper.2 bound assigned

/-- Whoever is a member of the room of a host at some time is never a member of another room. -/
private theorem boundTo_of_hasMember {r : Relay} (settled : r.Settled) {calls : List Call}
    (proper : r.Proper calls) {host m : Handle} {when : List Call} (during : when <+: calls)
    (member : (r.afterAll when).HasMember host m) {early : List Call} (before : early <+: calls) :
    (r.afterAll early).BoundTo host m := by
  have settledAt {calls' : List Call} (part : calls' <+: calls) : (r.afterAll calls').Settled := by
    obtain ⟨rest, rfl⟩ := part
    exact settled_afterAll settled ((proper_append r calls' rest).mp proper).1
  have properFrom {first later : List Call} (part : first ++ later <+: calls) :
      (r.afterAll first).Proper later := by
    obtain ⟨rest, rfl⟩ := part
    exact ((proper_append r first later).mp ((proper_append r _ rest).mp proper).1).2
  have assigned {calls' : List Call} (part : calls' <+: calls) {code : String} {room : Room}
      (live : Table.find? (r.afterAll calls').rooms code = some room) (inside : m ∈ room.members) :
      ((r.afterAll calls').peer m).role ≠ .unassigned := by
    intro fresh
    exact (settledAt part).not_mem_of_unassigned live fresh (List.mem_cons_of_mem _ inside)
  obtain ⟨code, room, live, hosts, inside⟩ := (settledAt during).hasMember_iff.mp member
  have bound := (settledAt during).boundTo live inside
  rw [hosts] at bound
  rcases List.prefix_or_prefix_of_prefix during before with ⟨later, rfl⟩ | ⟨later, rfl⟩
  · rw [afterAll_append]
    exact boundTo_afterAll (settledAt during) (properFrom before) bound
      (assigned during live inside)
  · -- a room of an earlier time would still have its host at the later one
    intro code' room' live' inside'
    have kept := boundTo_afterAll (settledAt before) (properFrom during)
      ((settledAt before).boundTo live' inside') (assigned before live' inside')
    rw [← afterAll_append] at kept
    exact (kept code room live inside).symm.trans hosts

/-! ### What a member receives -/

/-- In the course of some calls, two connections are open members of the room of a host at the same
times. -/
def Together (r : Relay) (host m n : Handle) : List Call → Prop
  | [] => True
  | call :: rest =>
    (r.HasOpenMember host m ↔ r.HasOpenMember host n) ∧ (r.after call).Together host m n rest

theorem relayed_append (r : Relay) (host m : Handle) (calls later : List Call) :
    r.relayed host m (calls ++ later) =
      r.relayed host m calls ++ (r.afterAll calls).relayed host m later := by
  induction calls generalizing r with
  | nil => rfl
  | cons call rest ih =>
    have tail := ih (r.after call)
    simp only [List.cons_append, relayed, tail, List.append_assoc]
    rfl

private theorem relayed_of_together {r : Relay} {host m n : Handle} {calls : List Call}
    (together : r.Together host m n calls) : r.relayed host m calls = r.relayed host n calls := by
  induction calls generalizing r with
  | nil => rfl
  | cons call rest ih =>
    have first : r.relayed? host m call = r.relayed? host n call := by
      unfold relayed?
      simp only [together.1]
    rw [relayed, relayed, first, ih together.2]

/-- In the course of some calls from nothing a connection is once a member of the room of a host,
and its writer always goes on where it stopped. -/
structure Attends (codes : CodeSource) (calls : List Call) (host m : Handle) : Prop where
  member : ∃ early, early <+: calls ∧ ((initial codes).afterAll early).HasMember host m
  steady : (initial codes).Steady m .idle calls

theorem Attends.received {codes : CodeSource} {calls : List Call} {host m : Handle}
    (attends : Attends codes calls host m) (proper : (initial codes).Proper calls) :
    ((initial codes).received m calls).Sublist ((initial codes).relayed host m calls) ∧
      ((initial codes).Lossless m calls →
        (initial codes).received m calls = (initial codes).relayed host m calls) := by
  obtain ⟨early, during, seated⟩ := attends.member
  have settled := settled_initial codes
  have nothing : (initial codes).onTheWay m .idle = [] := rfl
  obtain ⟨part, whole⟩ := onTheWay_afterAll settled proper
    (fun _ before => boundTo_of_hasMember settled proper during seated before) attends.steady
  rw [nothing, List.nil_append] at part whole
  refine ⟨(List.sublist_append_left _ _).trans part, ?_⟩
  rintro ⟨kept, empty, sound, free⟩
  have arrived : ((initial codes).afterAll calls).onTheWay m
      ((initial codes).endingAfterAll m .idle calls) = [] := by
    rw [onTheWay, free, empty]
    rfl
  rw [← whole kept sound, arrived, List.append_nil]

/-- The states that the socket of a member was handed are some of those that the host of its room
relayed while it was an open member, in this order. They are all of them when nothing was lost. In a
time in which two such members were open, or not, together, both received the same. -/
theorem received_of_attends (codes : CodeSource) (calls : List Call)
    (proper : (initial codes).Proper calls) (host m : Handle)
    (attends : Attends codes calls host m) :
    ((initial codes).received m calls).Sublist ((initial codes).relayed host m calls) ∧
      ((initial codes).Lossless m calls →
        (initial codes).received m calls = (initial codes).relayed host m calls ∧
        ∀ n, Attends codes calls host n → (initial codes).Lossless n calls →
          ∀ before span later, calls = before ++ span ++ later →
            ((initial codes).afterAll before).Together host m n span →
            ∃ shared,
              (initial codes).received m calls = (initial codes).relayed host m before ++ shared ++
                ((initial codes).afterAll (before ++ span)).relayed host m later ∧
              (initial codes).received n calls = (initial codes).relayed host n before ++ shared ++
                ((initial codes).afterAll (before ++ span)).relayed host n later) := by
  obtain ⟨part, whole⟩ := attends.received proper
  refine ⟨part, fun lossless => ⟨whole lossless, ?_⟩⟩
  intro n also losslessToo before span later same together
  refine ⟨((initial codes).afterAll before).relayed host m span, ?_, ?_⟩
  · rw [whole lossless, same, relayed_append, relayed_append]
  · rw [(also.received proper).2 losslessToo, same, relayed_append, relayed_append,
      relayed_of_together together]

/-- A host relays three states. The player that joined before the second one gets the others, one of
them after its socket was stalled for a while; the socket of the spectator is dead. -/
def round : List Call :=
  [.arrive 0 "h" 4, .arrive 1 "p" 4, .arrive 2 "s" 1, .host 0, .seat .spectator 2 (some "a"),
    .input 0 (.int 1), .seat .player 1 (some "a"), .input 0 (.int 2),
    .write 1 (fun call => if call = 0 then .accepted else .pending) none, .input 0 (.int 3),
    .write 2 (fun _ => .failed .peerGone) none, .input 1 .null,
    .write 1 (fun _ => .accepted) (some (.message (.state (.int 2))))]

theorem received_of_attends_in_round :
    (initial (.listed ["a"])).Proper round ∧ Attends (.listed ["a"]) round 0 1 ∧
      (initial (.listed ["a"])).Lossless 1 round ∧
      (initial (.listed ["a"])).received 1 round = (initial (.listed ["a"])).relayed 0 1 round ∧
      (initial (.listed ["a"])).relayed 0 1 round = [.int 2, .int 3] := by
  have proper : (initial (.listed ["a"])).Proper round := by decide +kernel
  have attends : Attends (.listed ["a"]) round 0 1 :=
    ⟨⟨round, List.prefix_refl _, by decide +kernel⟩, by decide +kernel⟩
  have lossless : (initial (.listed ["a"])).Lossless 1 round := by
    unfold Lossless
    decide +kernel
  have all := received_of_attends _ round proper 0 1 attends
  exact ⟨proper, attends, lossless, (all.2 lossless).1, by decide +kernel⟩

end Relay

end GameRelay
