import GameRelay.Proofs.RoomCode
import GameRelay.Proofs.Relay.Routing

/-!
# What comes of a frame

A frame goes in one of seven ways, and `Goes` says for each of them when it is taken and all that is
different afterwards. A request for a role is granted as a whole, with one answer, or it is refused
with one answer and changes nothing else. A request to host that the source of codes fails changes
nothing but the source; when the source gives taken codes for ever, the request is never done.
-/

set_option autoImplicit false
set_option relaxedAutoImplicit false

namespace GameRelay

inductive Way
  | malformed
  /-- It asks for a role, and the client has one. -/
  | again
  /-- It asks for a seat in a room that is not live. -/
  | unknown
  /-- It asks for a role, and the client gets it. -/
  | granted
  | relayed
  /-- It asks for a room, and the source of codes fails. -/
  | failed
  /-- It asks for a room, and the source of codes gives taken codes for ever. -/
  | endless
  deriving DecidableEq

private theorem Room.relists_admitted (room : Room) (seat : Seat) (h : Handle) :
    room.Relists (room.admitted seat h) seat (room.occupants seat ++ [h]) where
  code := room.code_admitted seat h
  host := room.host_admitted seat h
  list := by rw [Room.occupants_admitted, if_pos rfl]
  other place ne := by rw [Room.occupants_admitted, if_neg ne]

namespace Relay

/-- A connection has opened a room and was told so, and nothing else is different but the source of
codes and what was reported. -/
structure Founds (r next : Relay) (h : Handle) (code : String) : Prop where
  rooms : next.rooms = r.rooms ++ [(code, ⟨code, h, [], []⟩)]
  answer : Connection.Hears { r.peer h with role := .host, room := some code } (next.peer h)
    (.roomCreated code)
  others : ∀ k, k ≠ h → next.peer k = r.peer k
  codes : next.codes = r.codeSearch.rest
  known : next.known = r.known

/-- A connection has taken a seat at the end of the list for it and was told so, the host was told
of a player, and nothing else is different but what was reported. -/
structure Admits (r next : Relay) (seat : Seat) (h : Handle) (room : Room) : Prop where
  rooms : r.Reseats next room seat (room.occupants seat ++ [h])
  answer : Connection.Hears { r.peer h with role := seat.role, room := some room.code }
    (next.peer h) (.seated seat room.code)
  host : seat = .player → (r.peer room.host).Hears (next.peer room.host) (.playerJoined (r.idOf h))
  others : ∀ k, k ≠ h → (seat = .player → k ≠ room.host) → next.peer k = r.peer k
  codes : next.codes = r.codes
  known : next.known = r.known

/-- Nothing is different but the source of codes, and what was reported. -/
def OnlySpends (r next : Relay) : Prop :=
  next.peers = r.peers ∧ next.rooms = r.rooms ∧ next.codes = r.codeSearch.rest

/-- A frame of a connection goes in a way: what it asks for, what makes it go so, and what comes of
it. -/
inductive Goes (r : Relay) (h : Handle) (f : Frame) : Way → Prop
  | malformed (fault : Rejection) (next : Relay) (read : Request.ofFrame f = .error fault)
      (run : (handle h f).run r = .ok () next) (only : r.OnlyReports next) : Goes r h f .malformed
  | again (next : Relay)
      (read : Request.ofFrame f = .ok .host ∨
        ∃ seat code, Request.ofFrame f = .ok (.seat seat code))
      (role : (r.peer h).role ≠ .unassigned) (run : (handle h f).run r = .ok () next)
      (answer : r.Informs next [h] (.error alreadyInRoom)) : Goes r h f .again
  | unknown (seat : Seat) (code : String) (next : Relay)
      (read : Request.ofFrame f = .ok (.seat seat code)) (role : (r.peer h).role = .unassigned)
      (missing : Table.find? r.rooms code = none) (run : (handle h f).run r = .ok () next)
      (answer : r.Informs next [h] (.error roomNotFound)) : Goes r h f .unknown
  | opened (code : String) (next : Relay) (read : Request.ofFrame f = .ok .host)
      (role : (r.peer h).role = .unassigned)
      (gives : r.codes.Gives (Table.contains r.rooms) code)
      (run : (handle h f).run r = .ok () next) (founds : r.Founds next h code) : Goes r h f .granted
  | seated (seat : Seat) (room : Room) (next : Relay)
      (read : Request.ofFrame f = .ok (.seat seat room.code))
      (role : (r.peer h).role = .unassigned)
      (live : Table.find? r.rooms room.code = some room)
      (run : (handle h f).run r = .ok () next) (admits : r.Admits next seat h room) :
    Goes r h f .granted
  | relayed (move state : Option Json.Value) (payload : Json.Value) (next : Relay)
      (read : Request.ofFrame f = .ok (.input move state))
      (sends : payload = if (r.peer h).role = .host then Request.hostPayload move state
        else Request.playerPayload move)
      (run : (handle h f).run r = .ok () next) (same : (relayInput h payload).run r = .ok () next)
      (routes : r.Routes next h payload) : Goes r h f .relayed
  | failed (fault : SourceFault) (next : Relay) (read : Request.ofFrame f = .ok .host)
      (role : (r.peer h).role = .unassigned) (fails : r.codes.Fails (Table.contains r.rooms) fault)
      (run : (handle h f).run r = .error (.source fault) next) (spends : r.OnlySpends next) :
    Goes r h f .failed
  | endless (next : Relay) (read : Request.ofFrame f = .ok .host)
      (role : (r.peer h).role = .unassigned)
      (free : ∀ code, ¬r.codes.Gives (Table.contains r.rooms) code)
      (sound : ∀ fault, ¬r.codes.Fails (Table.contains r.rooms) fault)
      (run : (handle h f).run r = .error .endlessSearch next) (spends : r.OnlySpends next) :
    Goes r h f .endless

def way (r : Relay) (h : Handle) (f : Frame) : Way :=
  match Request.ofFrame f with
  | .error _ => .malformed
  | .ok (.input _ _) => .relayed
  | .ok .host =>
    if (r.peer h).role = .unassigned then
      match r.codeSearch.outcome with
      | .found _ => .granted
      | .failed _ => .failed
      | .endless => .endless
    else .again
  | .ok (.seat _ code) =>
    if (r.peer h).role = .unassigned then
      if (Table.find? r.rooms code).isSome then .granted else .unknown
    else .again

variable {r : Relay} {h : Handle} {f : Frame}

/-- A frame goes in no other way. -/
theorem Goes.eq_way {way : Way} (goes : r.Goes h f way) : way = r.way h f := by
  cases goes with
  | malformed fault next read => simp only [Relay.way, read]
  | again next read role =>
    rcases read with read | ⟨seat, code, read⟩ <;> simp only [Relay.way, read, role, if_false]
  | unknown seat code next read role missing =>
    simp [Relay.way, read, role, missing]
  | opened code next read role gives =>
    have outcome : r.codeSearch.outcome = .found code :=
      CodeSource.outcome_search_eq_found_iff.mpr gives
    simp only [Relay.way, read, role, outcome, if_true]
  | seated seat room next read role live => simp [Relay.way, read, role, live]
  | relayed move state payload next read => simp only [Relay.way, read]
  | failed fault next read role fails =>
    have outcome : r.codeSearch.outcome = .failed fault :=
      CodeSource.outcome_search_eq_failed_iff.mpr fails
    simp only [Relay.way, read, role, outcome, if_true]
  | endless next read role free sound =>
    have outcome : r.codeSearch.outcome = .endless :=
      CodeSource.outcome_search_eq_endless_iff.mpr ⟨free, sound⟩
    simp only [Relay.way, read, role, outcome, if_true]

private theorem founds_opened (known : h ∈ r.known) {code : String}
    (found : r.codeSearch.outcome = .found code) : r.Founds (r.searched.opened h code) h code := by
  have peer (k : Handle) := r.searched.peer_opened h k code
  have free : Table.find? r.searched.rooms code = none := free_of_codeSearch (r := r) found
  refine ⟨rooms_opened_of_free h free, ?_, ?_, r.searched.codes_opened h code,
    r.searched.known_opened code known⟩
  · rw [peer, if_pos rfl]
    exact Connection.hears_offered _ _
  · intro k other
    rw [peer, if_neg other]
    rfl

private theorem goes_host (known : h ∈ r.known) (read : Request.ofFrame f = .ok .host) :
    ∃ way, r.Goes h f way := by
  have run : (handle h f).run r = (Call.host h).action.run r :=
    run_handle_of_ask (by simp only [ask, read])
  by_cases role : (r.peer h).role = .unassigned
  · rw [run_host role] at run
    cases outcome : r.codeSearch.outcome with
    | found code =>
      rw [outcome] at run
      exact ⟨_, .opened code _ read role (CodeSource.outcome_search_eq_found_iff.mp outcome) run
        (founds_opened known outcome)⟩
    | failed fault =>
      rw [outcome] at run
      exact ⟨_, .failed fault _ read role (CodeSource.outcome_search_eq_failed_iff.mp outcome) run
        ⟨rfl, rfl, rfl⟩⟩
    | endless =>
      rw [outcome] at run
      obtain ⟨free, sound⟩ := CodeSource.outcome_search_eq_endless_iff.mp outcome
      exact ⟨_, .endless _ read role free sound run ⟨rfl, rfl, rfl⟩⟩
  · exact ⟨_, .again _ (.inl read) role (run.trans (run_host_of_assigned role))
      (informs_of_follows (follows_rejected r known))⟩

namespace Settled

variable (settled : r.Settled)
include settled

private theorem admits_seated (known : h ∈ r.known) (role : (r.peer h).role = .unassigned)
    (seat : Seat) {room : Room} (live : Table.find? r.rooms room.code = some room) :
    r.Admits (r.seated seat h room) seat h room := by
  have ne : room.host ≠ h := by
    rintro rfl
    exact settled.not_mem_of_unassigned live role List.mem_cons_self
  have peer := r.peer_seated seat ne
  refine ⟨settled.reseats live (room.relists_admitted seat h) (r.rooms_seated seat h room),
    ?_, ?_, ?_, r.codes_seated seat h room,
    r.known_seated seat known ((settled.fits live).present _ List.mem_cons_self)⟩
  · rw [peer, if_pos rfl]
    exact Connection.hears_offered _ _
  · intro player
    rw [peer, if_neg ne, if_pos ⟨player, rfl⟩]
    exact Connection.hears_offered _ _
  · intro k other apart
    rw [peer, if_neg other, if_neg]
    rintro ⟨player, same⟩
    exact apart player same

private theorem goes_seat (known : h ∈ r.known) {seat : Seat} {code : String}
    (read : Request.ofFrame f = .ok (.seat seat code)) : ∃ way, r.Goes h f way := by
  have run : (handle h f).run r = (Call.seat seat h (some code)).action.run r :=
    run_handle_of_ask (by simp only [ask, read])
  by_cases role : (r.peer h).role = .unassigned
  · cases live : Table.find? r.rooms code with
    | none =>
      have answer : r.Follows (r.refused h (some code)) (.tell [h] (.error roomNotFound)) :=
        follows_answer (r.peer_refused h · _) (r.rooms_refused h _) (r.codes_refused h _)
          (r.known_refused _ known)
      exact ⟨_, .unknown seat code _ read role live (run.trans (run_seat_of_unknown seat role live))
        (informs_of_follows answer)⟩
    | some room =>
      obtain rfl := settled.filed code room live
      exact ⟨_, .seated seat room _ read role live (run.trans (run_seat seat role live))
        (settled.admits_seated known role seat live)⟩
  · exact ⟨_, .again _ (.inr ⟨seat, code, read⟩) role
      (run.trans (run_seat_of_assigned seat _ role))
      (informs_of_follows (follows_rejected r known))⟩

theorem goes (known : h ∈ r.known) (f : Frame) : ∃ way, r.Goes h f way := by
  cases read : Request.ofFrame f with
  | error fault =>
    refine ⟨_, .malformed fault (r.noted (.malformedFrame (r.idOf h) f)) read ?_
      (r.onlyReports_noted _)⟩
    have run := r.run_frame h f
    simp only [ask, read] at run
    exact run
  | ok request =>
    cases request with
    | host => exact goes_host known read
    | seat seat code => exact settled.goes_seat known read
    | input move state =>
      have asks : r.ask h f = some (.input h (if (r.peer h).role = .host then
          Request.hostPayload move state else Request.playerPayload move)) := by
        simp only [ask, read]
      have relays := r.run_relayInput h (if (r.peer h).role = .host then
        Request.hostPayload move state else Request.playerPayload move)
      exact ⟨_, .relayed move state _ _ read rfl ((run_handle_of_ask asks).trans relays) relays
        (settled.routes h _)⟩

end Settled

/-- Whatever was done with a relay, a frame of somebody who has come goes in exactly one way. -/
theorem goes_dealtAll (codes : CodeSource) (ds : List Dealing)
    (possible : (initial codes).AllPossible ds) {h : Handle}
    (known : h ∈ ((initial codes).dealtAll ds).known) (f : Frame) :
    ∃! way, ((initial codes).dealtAll ds).Goes h f way := by
  obtain ⟨way, goes⟩ := ((inOrder_initial codes).dealtAll possible).settled.goes known f
  exact ⟨way, goes, fun _ other => other.eq_way.trans goes.eq_way.symm⟩

/-- A host with a full outbox and a player. A newcomer has come, and the source of codes has nothing
but the taken one left. -/
def doorstep : List Dealing :=
  [.call (.arrive 0 "h" 1), .call (.host 0), .call (.arrive 1 "p" 4),
    .call (.seat .player 1 (some "a")), .call (.arrive 2 "n" 4), .call (.refill (.listed ["a"]))]

/-- The newcomer joins, or it asks for a room of its own in vain. -/
theorem goes_after_doorstep :
    let r := (initial (.listed ["a"])).dealtAll doorstep
    let joining := Frame.text "\x7b\"type\":\"join\",\"roomCode\":\"a\"\x7d"
    let hosting := Frame.text "\x7b\"type\":\"host\"\x7d"
    (initial (.listed ["a"])).AllPossible doorstep ∧ 2 ∈ r.known ∧
      (∃! way, r.Goes 2 joining way) ∧
      (∃ next, (handle 2 joining).run r = .ok () next ∧
        (next.peer 0).outbox.items = [.message (.playerJoined "n")] ∧
        (next.peer 2).outbox.items = [.message (.seated .player "a")] ∧
        next.peer 1 = r.peer 1) ∧
      ∃ next, (handle 2 hosting).run r = .error (.source .codesExhausted) next ∧
        next.peers = r.peers ∧ next.rooms = r.rooms := by
  intro r joining hosting
  have possible : (initial (.listed ["a"])).AllPossible doorstep := by decide +kernel
  have known : 2 ∈ r.known := by decide +kernel
  have goes := goes_dealtAll (.listed ["a"]) doorstep possible known
  refine ⟨possible, known, goes joining, ?_, ?_⟩
  · have read : Request.ofFrame joining = .ok (.seat .player "a") := by decide +kernel
    obtain ⟨way, goes, -⟩ := goes joining
    obtain rfl : way = .granted := goes.eq_way.trans (by decide +kernel)
    cases goes with
    | opened code next asks => cases read.symm.trans asks
    | seated seat room next asks role live run admits =>
      obtain ⟨rfl, code⟩ := Request.seat.inj (Except.ok.inj (read.symm.trans asks))
      rw [← code] at live
      obtain rfl : room = ⟨"a", 0, [1], []⟩ :=
        Option.some.inj (live.symm.trans (by decide +kernel))
      have host := (admits.host rfl).gains (by decide +kernel)
      have answer := admits.answer.gains (by decide +kernel)
      exact ⟨next, run, host.items.trans (by decide +kernel),
        answer.items.trans (by decide +kernel),
        admits.others 1 (by decide) fun _ => by decide⟩
  · obtain ⟨way, goes, -⟩ := goes hosting
    obtain rfl : way = .failed := goes.eq_way.trans (by decide +kernel)
    cases goes with
    | failed fault next asks role fails run spends =>
      have outcome : r.codeSearch.outcome = .failed .codesExhausted := by decide +kernel
      have same := (CodeSource.outcome_search_eq_failed_iff.mpr fails).symm.trans outcome
      cases same
      exact ⟨next, run, spends.1, spends.2.1⟩

end Relay

end GameRelay
