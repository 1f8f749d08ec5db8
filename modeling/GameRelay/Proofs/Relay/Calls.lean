import GameRelay.Proofs.Relay.Requests

/-!
# Calls

What happens to a relay from outside, one call after the other: clients come, their frames are
handled or their requests made directly, their sessions end, their connections are closed or noted
as gone, and their writers run. A frame comes down to the call that it asks for. `Effect` lists
every way in which such a call can go, with the state after it.
-/

set_option autoImplicit false
set_option relaxedAutoImplicit false

namespace GameRelay

inductive Call
  | arrive (h : Handle) (id : String) (capacity : Int)
  | frame (h : Handle) (frame : Frame)
  | host (h : Handle)
  | seat (seat : Seat) (h : Handle) (requested : Option String)
  | input (h : Handle) (payload : Json.Value)
  | disconnect (h : Handle)
  | close (h : Handle)
  | detach (h : Handle)
  | write (h : Handle) (socket : Nat → CallOutcome) (held : Option Item)
  /-- From now on the codes come from elsewhere: a source may answer as it likes. -/
  | refill (codes : CodeSource)

namespace Call

def actor : Call → Option Handle
  | .arrive h _ _ | .frame h _ | .host h | .seat _ h _ | .input h _ | .disconnect h | .close h
  | .detach h | .write h _ _ => some h
  | .refill _ => none

/-- Whether a call is a request of a client, which may come in a frame. -/
def isRequest : Call → Bool
  | .host _ | .seat .. | .input .. => true
  | _ => false

def action : Call → Action Unit
  | .arrive h id capacity => Relay.arrive h id capacity
  | .frame h f => Relay.handle h f
  | .host h => do let _ ← Relay.createRoom h
  | .seat place h requested => do let _ ← Relay.takeSeat place h requested
  | .input h payload => Relay.relayInput h payload
  | .disconnect h => Relay.disconnect h
  | .close h => Relay.close h
  | .detach h => Relay.detach h
  | .write h socket held => do let _ ← Relay.runWriter h socket held
  | .refill codes => modify fun r => { r with codes }

end Call

namespace Relay

/-- The state after a call. A call that fails keeps what it changed before it failed. -/
def after (r : Relay) (call : Call) : Relay :=
  match call.action.run r with
  | .ok _ next | .error _ next => next

def afterAll (r : Relay) (calls : List Call) : Relay := calls.foldl after r

theorem after_of_ok {r next : Relay} (call : Call) {answer : Unit}
    (run : call.action.run r = .ok answer next) : r.after call = next := by
  rw [after, run]

/-- A call can be made: newcomers have a handle and an id of their own, and all others have come. -/
def Admissible (r : Relay) : Call → Prop
  | .arrive h id _ => h ∉ r.known ∧ id ∉ r.known.map r.idOf
  | call => ∀ h ∈ call.actor, h ∈ r.known

def Proper (r : Relay) : List Call → Prop
  | [] => True
  | call :: rest => r.Admissible call ∧ Proper (r.after call) rest

instance (r : Relay) : (call : Call) → Decidable (r.Admissible call)
  | .arrive h id _ => inferInstanceAs (Decidable (h ∉ r.known ∧ id ∉ r.known.map r.idOf))
  | .frame h _ | .host h | .seat _ h _ | .input h _ | .disconnect h | .close h | .detach h
  | .write h _ _ => inferInstanceAs (Decidable (∀ k ∈ some h, k ∈ r.known))
  | .refill _ => inferInstanceAs (Decidable (∀ k ∈ none, k ∈ r.known))

instance decidableProper (r : Relay) : (calls : List Call) → Decidable (r.Proper calls)
  | [] => .isTrue trivial
  | call :: rest =>
    have := decidableProper (r.after call) rest
    inferInstanceAs (Decidable (r.Admissible call ∧ (r.after call).Proper rest))

theorem afterAll_append (r : Relay) (calls later : List Call) :
    r.afterAll (calls ++ later) = (r.afterAll calls).afterAll later :=
  List.foldl_append

theorem proper_append (r : Relay) (calls later : List Call) :
    r.Proper (calls ++ later) ↔ r.Proper calls ∧ (r.afterAll calls).Proper later := by
  induction calls generalizing r with
  | nil => simp [Proper, afterAll]
  | cons call rest ih => simp [Proper, afterAll, ih, and_assoc]

/-- What a frame asks for; a frame that is no request asks for nothing. -/
def ask (r : Relay) (h : Handle) (frame : Frame) : Option Call :=
  match Request.ofFrame frame with
  | .error _ => none
  | .ok .host => some (.host h)
  | .ok (.seat seat code) => some (.seat seat h (some code))
  | .ok (.input move state) =>
    some (.input h (if (r.peer h).role = .host then Request.hostPayload move state
      else Request.playerPayload move))

/-- What a call asks for: frames are looked through. -/
def asked (r : Relay) : Call → Option Call
  | .frame h frame => r.ask h frame
  | call => some call

theorem run_frame (r : Relay) (h : Handle) (f : Frame) :
    (Call.frame h f).action.run r =
      match r.ask h f with
      | none => .ok () (r.noted (.malformedFrame (r.idOf h) f))
      | some call => call.action.run r := by
  change (handle h f).run r = _
  unfold handle ask
  cases Request.ofFrame f with
  | error _ => rfl
  | ok request =>
    cases request with
    | host => rfl
    | seat seat code => rfl
    | input move state =>
      simp only [perform, EStateM.run_bind, EStateM.run_get]
      by_cases role : (r.peer h).role = .host
      · simp only [role, if_true]
        rfl
      · simp only [role, if_false]
        rfl

theorem run_handle_of_ask {r : Relay} {h : Handle} {f : Frame} {call : Call}
    (asks : r.ask h f = some call) : (handle h f).run r = call.action.run r := by
  have run := r.run_frame h f
  rw [asks] at run
  exact run

theorem after_frame (r : Relay) (h : Handle) (f : Frame) :
    r.after (.frame h f) =
      match r.ask h f with
      | none => r.noted (.malformedFrame (r.idOf h) f)
      | some call => r.after call := by
  rw [after, run_frame]
  cases r.ask h f <;> rfl

theorem after_frame_of_ask {r : Relay} {h : Handle} {f : Frame} {call : Call}
    (asks : r.ask h f = some call) : r.after (.frame h f) = r.after call := by
  rw [after_frame, asks]

theorem after_of_asked {r : Relay} {call plain : Call} (asks : r.asked call = some plain) :
    r.after call = r.after plain := by
  cases call with
  | frame h f => exact after_frame_of_ask asks
  | _ => rw [Option.some.inj asks]

theorem after_input (r : Relay) (h : Handle) (payload : Json.Value) :
    r.after (.input h payload) = r.routed h payload :=
  after_of_ok (.input h payload) (run_relayInput r h payload)

theorem ask_cases {r : Relay} {h : Handle} {f : Frame} {call : Call}
    (asks : r.ask h f = some call) :
    call = .host h ∨ (∃ seat code, call = .seat seat h (some code)) ∨
      ∃ payload, call = .input h payload := by
  unfold ask at asks
  split at asks <;> cases asks
  · exact .inl rfl
  · exact .inr (.inl ⟨_, _, rfl⟩)
  · exact .inr (.inr ⟨_, rfl⟩)

theorem eq_of_asked {r : Relay} {call plain : Call} (asks : r.asked call = some plain)
    (direct : plain.isRequest = false) : call = plain := by
  cases call with
  | frame h f =>
    rcases ask_cases asks with rfl | ⟨_, _, rfl⟩ | ⟨_, rfl⟩ <;> cases direct
  | _ => exact Option.some.inj asks

theorem actor_asked {r : Relay} {call plain : Call} (asks : r.asked call = some plain) :
    plain.actor = call.actor := by
  cases call with
  | frame h f =>
    rcases ask_cases asks with rfl | ⟨seat, code, rfl⟩ | ⟨payload, rfl⟩ <;> rfl
  | _ =>
    cases asks
    rfl

/-- Every way in which a call can go, by what it asks for. -/
inductive Effect (r : Relay) : Option Call → Relay → Prop
  | malformed (h : Handle) (f : Frame) :
    Effect r none (r.noted (.malformedFrame (r.idOf h) f))
  | arrived (h : Handle) (id : String) (capacity : Int) :
    Effect r (some (.arrive h id capacity)) (r.setPeer h (.new id capacity))
  | rejectedHost (h : Handle) (role : (r.peer h).role ≠ .unassigned) :
    Effect r (some (.host h)) (r.rejected h)
  | searchedInVain (h : Handle) (role : (r.peer h).role = .unassigned)
      (vain : ∀ code, r.codeSearch.outcome ≠ .found code) : Effect r (some (.host h)) r.searched
  | opened (h : Handle) (code : String) (role : (r.peer h).role = .unassigned)
      (found : r.codeSearch.outcome = .found code) :
    Effect r (some (.host h)) (r.searched.opened h code)
  | rejectedSeat (seat : Seat) (h : Handle) (requested : Option String)
      (role : (r.peer h).role ≠ .unassigned) :
    Effect r (some (.seat seat h requested)) (r.rejected h)
  | refused (seat : Seat) (h : Handle) (requested : Option String)
      (role : (r.peer h).role = .unassigned) (unknown : r.room? requested = none) :
    Effect r (some (.seat seat h requested)) (r.refused h requested)
  | seated (seat : Seat) (h : Handle) (room : Room) (role : (r.peer h).role = .unassigned)
      (live : Table.find? r.rooms room.code = some room) :
    Effect r (some (.seat seat h (some room.code))) (r.seated seat h room)
  | playerInput (h : Handle) (payload : Json.Value) (room : Room)
      (role : (r.peer h).role = .player) (own : (r.peer h).room = some room.code)
      (live : Table.find? r.rooms room.code = some room) (held : room.holds r.idOf h) :
    Effect r (some (.input h payload)) (r.offered room.host (.input (r.idOf h) payload)
      (.hostSkipped room.code (r.idOf room.host)))
  | hostInput (h : Handle) (payload : Json.Value) (room : Room)
      (role : (r.peer h).role = .host) (own : (r.peer h).room = some room.code)
      (live : Table.find? r.rooms room.code = some room) (held : room.holds r.idOf h) :
    Effect r (some (.input h payload)) (r.broadcasted room (.state payload))
  | ignoredInput (h : Handle) (payload : Json.Value) (next : Relay)
      (quiet : next = r ∨ ∃ e, next = r.noted e) : Effect r (some (.input h payload)) next
  | homeless (h : Handle) (homeless : r.room? (r.peer h).room = none) :
    Effect r (some (.disconnect h)) r
  | ended (h : Handle) (room : Room) (role : (r.peer h).role = .host)
      (own : (r.peer h).room = some room.code) (live : Table.find? r.rooms room.code = some room) :
    Effect r (some (.disconnect h)) (r.ended room)
  | left (h : Handle) (room : Room) (role : (r.peer h).role ≠ .host)
      (own : (r.peer h).room = some room.code) (live : Table.find? r.rooms room.code = some room) :
    Effect r (some (.disconnect h)) (r.left h room)
  | closed (h : Handle) : Effect r (some (.close h)) (r.closed h)
  | detached (h : Handle) :
    Effect r (some (.detach h)) (r.setPeer h { r.peer h with isOpen := false })
  | written (h : Handle) (socket : Nat → CallOutcome) (held : Option Item) :
    Effect r (some (.write h socket held)) (r.written h socket held)
  | refilled (codes : CodeSource) : Effect r (some (.refill codes)) { r with codes }

def Filed (r : Relay) : Prop :=
  ∀ code room, Table.find? r.rooms code = some room → room.code = code

theorem Filed.live_of_room? {r : Relay} (filed : r.Filed) {code : Option String} {room : Room}
    (found : r.room? code = some room) :
    code = some room.code ∧ Table.find? r.rooms room.code = some room := by
  cases code with
  | none => cases found
  | some code =>
    obtain rfl := filed code room found
    exact ⟨rfl, found⟩

theorem run_host_of_assigned {r : Relay} {h : Handle} (role : (r.peer h).role ≠ .unassigned) :
    (Call.host h).action.run r = .ok () (r.rejected h) := by
  simp only [Call.action, EStateM.run_bind, run_createRoom_of_assigned role, EStateM.run_pure]

theorem run_host {r : Relay} {h : Handle} (role : (r.peer h).role = .unassigned) :
    (Call.host h).action.run r =
      match r.codeSearch.outcome with
      | .found code => .ok () (r.searched.opened h code)
      | .failed fault => .error (.source fault) r.searched
      | .endless => .error .endlessSearch r.searched := by
  simp only [Call.action, EStateM.run_bind, run_createRoom role]
  cases r.codeSearch.outcome <;> rfl

theorem run_seat_of_assigned {r : Relay} {h : Handle} (seat : Seat) (requested : Option String)
    (role : (r.peer h).role ≠ .unassigned) :
    (Call.seat seat h requested).action.run r = .ok () (r.rejected h) := by
  simp only [Call.action, EStateM.run_bind, run_takeSeat_of_assigned seat requested role,
    EStateM.run_pure]

theorem run_seat_of_unknown {r : Relay} {h : Handle} (seat : Seat) {requested : Option String}
    (role : (r.peer h).role = .unassigned) (unknown : r.room? requested = none) :
    (Call.seat seat h requested).action.run r = .ok () (r.refused h requested) := by
  simp only [Call.action, EStateM.run_bind, run_takeSeat_of_unknown seat role unknown,
    EStateM.run_pure]

theorem run_seat {r : Relay} {h : Handle} (seat : Seat) {room : Room}
    (role : (r.peer h).role = .unassigned) (live : Table.find? r.rooms room.code = some room) :
    (Call.seat seat h (some room.code)).action.run r = .ok () (r.seated seat h room) := by
  have found : r.room? (some room.code) = some room := live
  simp only [Call.action, EStateM.run_bind, run_takeSeat role found live, EStateM.run_pure]

private theorem effect_host (r : Relay) (h : Handle) :
    r.Effect (some (.host h)) (r.after (.host h)) := by
  by_cases role : (r.peer h).role = .unassigned
  · rw [after, run_host role]
    cases outcome : r.codeSearch.outcome with
    | found code => exact .opened h code role outcome
    | failed fault => exact .searchedInVain h role (by simp [outcome])
    | endless => exact .searchedInVain h role (by simp [outcome])
  · rw [after, run_host_of_assigned role]
    exact .rejectedHost h role

private theorem effect_seat {r : Relay} (filed : r.Filed) (seat : Seat) (h : Handle)
    (requested : Option String) :
    r.Effect (some (.seat seat h requested)) (r.after (.seat seat h requested)) := by
  by_cases role : (r.peer h).role = .unassigned
  · cases found : r.room? requested with
    | none =>
      rw [after, run_seat_of_unknown seat role found]
      exact .refused seat h requested role found
    | some room =>
      obtain ⟨rfl, live⟩ := filed.live_of_room? found
      rw [after, run_seat seat role live]
      exact .seated seat h room role live
  · rw [after, run_seat_of_assigned seat requested role]
    exact .rejectedSeat seat h requested role

theorem effect_disconnect {r : Relay} (filed : r.Filed) (h : Handle) :
    r.Effect (some (.disconnect h)) (r.after (.disconnect h)) := by
  cases found : r.room? (r.peer h).room with
  | none =>
    rw [after_of_ok (.disconnect h) (run_disconnect_of_homeless found)]
    exact .homeless h found
  | some room =>
    obtain ⟨own, live⟩ := filed.live_of_room? found
    by_cases role : (r.peer h).role = .host
    · rw [after_of_ok (.disconnect h) (run_disconnect_of_host role found live)]
      exact .ended h room role own live
    · rw [after_of_ok (.disconnect h) (run_disconnect_of_member role found live)]
      exact .left h room role own live

private theorem effect_input {r : Relay} (filed : r.Filed) (h : Handle) (payload : Json.Value) :
    r.Effect (some (.input h payload)) (r.after (.input h payload)) := by
  rw [after_input, routed]
  cases found : r.room? (r.peer h).room with
  | none => exact .ignoredInput h payload _ (.inr ⟨_, rfl⟩)
  | some room =>
    obtain ⟨own, live⟩ := filed.live_of_room? found
    by_cases held : room.holds r.idOf h
    · simp only [held, if_true]
      cases role : (r.peer h).role with
      | player => exact .playerInput h payload room role own live held
      | host => exact .hostInput h payload room role own live held
      | spectator => exact .ignoredInput h payload _ (.inr ⟨_, rfl⟩)
      | unassigned => exact .ignoredInput h payload _ (.inl rfl)
    · simp only [held, Bool.false_eq_true, if_false]
      exact .ignoredInput h payload _ (.inr ⟨_, rfl⟩)

theorem after_close (r : Relay) (h : Handle) : r.after (.close h) = r.closed h :=
  after_of_ok (.close h) (run_close r h)

theorem after_write (r : Relay) (h : Handle) (socket : Nat → CallOutcome) (held : Option Item) :
    r.after (.write h socket held) = r.written h socket held := by
  simp only [after, Call.action, EStateM.run_bind, run_runWriter, EStateM.run_pure]

/-- A call has one of the listed effects. -/
theorem effect_after {r : Relay} (filed : r.Filed) (call : Call) :
    r.Effect (r.asked call) (r.after call) := by
  cases call with
  | arrive h id capacity => exact .arrived h id capacity
  | frame h f =>
    rw [after_frame]
    change r.Effect (r.ask h f) _
    cases asks : r.ask h f with
    | none => exact .malformed h f
    | some call =>
      rcases ask_cases asks with rfl | ⟨seat, code, rfl⟩ | ⟨payload, rfl⟩
      · exact effect_host r h
      · exact effect_seat filed seat h (some code)
      · exact effect_input filed h payload
  | host h => exact effect_host r h
  | seat seat h requested => exact effect_seat filed seat h requested
  | input h payload => exact effect_input filed h payload
  | disconnect h => exact effect_disconnect filed h
  | close h => exact after_close r h ▸ .closed h
  | detach h => exact .detached h
  | write h socket held => exact after_write r h socket held ▸ .written h socket held
  | refill codes => exact .refilled codes

end Relay

end GameRelay
