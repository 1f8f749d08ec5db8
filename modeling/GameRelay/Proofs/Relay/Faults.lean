import GameRelay.Proofs.RoomCode
import GameRelay.Proofs.Relay.Shifts

/-!
# Nothing that a client does is fatal

Messages to closed connections are passed over, a full outbox makes room for what comes, whoever is
seated has taken the role of a member before, and frames that are no requests are reported. So no
call comes out with a fault, with one exception: when a newcomer asks for a room of its own, the
source of codes may fail, or give taken codes for ever.
-/

set_option autoImplicit false
set_option relaxedAutoImplicit false

namespace GameRelay.Relay

/-- How a search for a free code can come to nothing, with the fault that comes of it. -/
inductive Vain (r : Relay) : Fault → Prop
  | failed (cause : SourceFault) (fails : r.codes.Fails (Table.contains r.rooms) cause) :
    Vain r (.source cause)
  | endless (never : ∀ code, ¬r.codes.Gives (Table.contains r.rooms) code)
      (unfailing : ∀ cause, ¬r.codes.Fails (Table.contains r.rooms) cause) :
    Vain r .endlessSearch

/-- A call is a newcomer's request for a room of its own, and the search for a code comes to
nothing. -/
def Frustrates (r : Relay) (call : Call) (fault : Fault) : Prop :=
  ∃ h, r.asked call = some (.host h) ∧ (r.peer h).role = .unassigned ∧ r.Vain fault

private theorem Vain.not_gives {r : Relay} {fault : Fault} (vain : r.Vain fault) (code : String) :
    ¬r.codes.Gives (Table.contains r.rooms) code := by
  intro gives
  cases vain with
  | failed cause fails =>
    have found := CodeSource.outcome_search_eq_found_iff.mpr gives
    have failed := CodeSource.outcome_search_eq_failed_iff.mpr fails
    cases found.symm.trans failed
  | endless never => exact never code gives

private theorem run_host_cases (r : Relay) (h : Handle) :
    (∃ next, (Call.host h).action.run r = .ok () next) ∨
      ∃ fault next, (Call.host h).action.run r = .error fault next ∧
        r.Frustrates (.host h) fault := by
  by_cases role : (r.peer h).role = .unassigned
  · rw [run_host role]
    cases outcome : r.codeSearch.outcome with
    | found code => exact .inl ⟨_, rfl⟩
    | failed cause =>
      have fails := CodeSource.outcome_search_eq_failed_iff.mp outcome
      exact .inr ⟨_, _, rfl, h, rfl, role, .failed cause fails⟩
    | endless =>
      obtain ⟨free, sound⟩ := CodeSource.outcome_search_eq_endless_iff.mp outcome
      exact .inr ⟨_, _, rfl, h, rfl, role, .endless free sound⟩
  · exact .inl ⟨_, run_host_of_assigned role⟩

private theorem run_seat_returns {r : Relay} (filed : r.Filed) (seat : Seat) (h : Handle)
    (requested : Option String) :
    ∃ next, (Call.seat seat h requested).action.run r = .ok () next := by
  by_cases role : (r.peer h).role = .unassigned
  · cases found : r.room? requested with
    | none => exact ⟨_, run_seat_of_unknown seat role found⟩
    | some room =>
      obtain ⟨rfl, live⟩ := filed.live_of_room? found
      exact ⟨_, run_seat seat role live⟩
  · exact ⟨_, run_seat_of_assigned seat requested role⟩

theorem run_disconnect_returns {r : Relay} (filed : r.Filed) (h : Handle) :
    ∃ next, (disconnect h).run r = .ok () next := by
  cases found : r.room? (r.peer h).room with
  | none => exact ⟨r, run_disconnect_of_homeless found⟩
  | some room =>
    have live := (filed.live_of_room? found).2
    by_cases role : (r.peer h).role = .host
    · exact ⟨r.ended room, run_disconnect_of_host role found live⟩
    · exact ⟨r.left h room, run_disconnect_of_member role found live⟩

/-- A call returns, or it frustrates a newcomer with the fault that it comes out with. -/
private theorem run_cases {r : Relay} (filed : r.Filed) (call : Call) :
    (∃ next, call.action.run r = .ok () next) ∨
      ∃ fault next, call.action.run r = .error fault next ∧ r.Frustrates call fault := by
  cases call with
  | frame h f =>
    rw [run_frame]
    cases asks : r.ask h f with
    | none => exact .inl ⟨_, rfl⟩
    | some plain =>
      rcases ask_cases asks with rfl | ⟨seat, code, rfl⟩ | ⟨payload, rfl⟩
      · -- the frame asks for what the plain request asks for
        rcases run_host_cases r h with returns | ⟨fault, next, run, k, same, frustrated⟩
        · exact .inl returns
        · exact .inr ⟨fault, next, run, k, asks.trans same, frustrated⟩
      · exact .inl (run_seat_returns filed seat h (some code))
      · exact .inl ⟨_, run_relayInput r h payload⟩
  | host h => exact run_host_cases r h
  | seat seat h requested => exact .inl (run_seat_returns filed seat h requested)
  | input h payload => exact .inl ⟨_, run_relayInput r h payload⟩
  | disconnect h => exact .inl (run_disconnect_returns filed h)
  | close h => exact .inl ⟨_, run_close r h⟩
  | write h socket held =>
    refine .inl ⟨r.written h socket held, ?_⟩
    simp only [Call.action, EStateM.run_bind, run_runWriter, EStateM.run_pure]
  | arrive h id capacity => exact .inl ⟨_, rfl⟩
  | detach h => exact .inl ⟨_, rfl⟩
  | refill codes => exact .inl ⟨_, rfl⟩

/-- The frames of a connection are handled, and its session can be ended, without a fault that the
source of codes is not to blame for. -/
structure Sturdy (r : Relay) (h : Handle) (frame : Frame) : Prop where
  ended : ∃ next, (disconnect h).run r = .ok () next
  /-- When the source sooner or later gives a free code, the frame is handled. -/
  handled : ∀ code, r.codes.Gives (Table.contains r.rooms) code →
    ∃ next, (handle h frame).run r = .ok () next
  /-- Whatever the source gives, handling the frame returns, or a newcomer is frustrated. -/
  blamed : (∃ next, (handle h frame).run r = .ok () next) ∨
    ∃ fault next, (handle h frame).run r = .error fault next ∧
      r.ask h frame = some (.host h) ∧ (r.peer h).role = .unassigned ∧ r.Vain fault

theorem Filed.sturdy {r : Relay} (filed : r.Filed) (h : Handle) (frame : Frame) :
    r.Sturdy h frame := by
  have cases := run_cases filed (.frame h frame)
  refine ⟨run_disconnect_returns filed h, ?_, ?_⟩
  · intro code gives
    rcases cases with returns | ⟨fault, _, _, _, _, _, vain⟩
    · exact returns
    · exact absurd gives (vain.not_gives code)
  · rcases cases with returns | ⟨fault, next, run, k, asks, role, vain⟩
    · exact .inl returns
    · -- whoever asks for a room asks for its own
      have actor : some k = some h := actor_asked asks
      cases actor
      exact .inr ⟨fault, next, run, asks, role, vain⟩

/-- Whatever calls have been made in whatever order: frames of any connection are handled and
sessions can be ended. A fault comes out only when a newcomer asks for a room and the source of
codes fails or gives taken codes for ever. -/
theorem sturdy_afterAll (codes : CodeSource) (calls : List Call)
    (proper : (initial codes).Proper calls) (h : Handle) (frame : Frame) :
    ((initial codes).afterAll calls).Sturdy h frame :=
  (settled_afterAll (settled_initial codes) proper).filed.sturdy h frame

/-- A room whose host has a dead socket and a full outbox, whose player is gone and whose spectator
is closed. A newcomer meets a taken code first. -/
def wreckage : List Call :=
  [.arrive 0 "h" 1, .arrive 1 "p" 1, .arrive 2 "s" 0, .host 0, .seat .player 1 (some "a"),
    .write 0 (fun _ => .failed .peerGone) none, .detach 1, .seat .spectator 2 (some "a"), .close 2,
    .input 0 .null, .input 1 .null, .arrive 3 "n" 1, .refill (.listed ["a", "b"])]

theorem sturdy_after_wreckage :
    let r := (initial (.listed ["a"])).afterAll wreckage
    let asking := Frame.text "\x7b\"type\":\"host\"\x7d"
    (initial (.listed ["a"])).Proper wreckage ∧ r.codes.Gives (Table.contains r.rooms) "b" ∧
      r.Sturdy 3 asking ∧ ∃ next, (handle 3 asking).run r = .ok () next := by
  intro r asking
  have proper : (initial (.listed ["a"])).Proper wreckage := by decide +kernel
  have sturdy : r.Sturdy 3 asking := sturdy_afterAll _ wreckage proper 3 asking
  have codes : r.codes = .listed ["a", "b"] := by decide +kernel
  have gives : r.codes.Gives (Table.contains r.rooms) "b" := by
    rw [codes]
    exact .later rfl (by decide +kernel) (.now rfl (by decide +kernel))
  exact ⟨proper, gives, sturdy, sturdy.handled "b" gives⟩

end GameRelay.Relay
