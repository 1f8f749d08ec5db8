import GameRelay.Proofs.Relay.Calls

/-!
# A slow peer holds up nobody

Two relays may differ in what waits for one connection, in how much may wait for it and was lost,
and in whether it is still open. No action of the relay looks at any of this to decide what it does
for somebody else: run from both relays it takes the same branches, and the relays still differ in
that one connection only. Rules for sequencing, for branching and for loops carry this through the
actions, and a run of calls is one action after the other.
-/

set_option autoImplicit false
set_option relaxedAutoImplicit false

namespace GameRelay

/-- What others see of a connection. -/
def Connection.face (c : Connection) : String × Role × Option String := (c.id, c.standing)

/-- Whether a call is anything else than a run of the writer of a connection. -/
def Call.sparesWriter (q : Handle) : Call → Bool
  | .write h _ _ => h ≠ q
  | _ => true

namespace Relay

/-- Two relays agree in everything but the outbox of one connection and whether it is open. What
was reported does not count. -/
structure AlikeBut (q : Handle) (r s : Relay) : Prop where
  rooms : r.rooms = s.rooms
  codes : r.codes = s.codes
  others : ∀ k, k ≠ q → r.peer k = s.peer k
  face : (r.peer q).face = (s.peer q).face

namespace AlikeBut

variable {q : Handle} {r s t : Relay}

theorem refl (q : Handle) (r : Relay) : r.AlikeBut q r := ⟨rfl, rfl, fun _ _ => rfl, rfl⟩

theorem symm (alike : r.AlikeBut q s) : s.AlikeBut q r where
  rooms := alike.rooms.symm
  codes := alike.codes.symm
  others k other := (alike.others k other).symm
  face := alike.face.symm

theorem trans (alike : r.AlikeBut q s) (also : s.AlikeBut q t) : r.AlikeBut q t where
  rooms := alike.rooms.trans also.rooms
  codes := alike.codes.trans also.codes
  others k other := (alike.others k other).trans (also.others k other)
  face := alike.face.trans also.face

theorem face_eq (alike : r.AlikeBut q s) (k : Handle) : (r.peer k).face = (s.peer k).face := by
  by_cases own : k = q
  · subst own
    exact alike.face
  · rw [alike.others k own]

theorem id_eq (alike : r.AlikeBut q s) (k : Handle) : (r.peer k).id = (s.peer k).id :=
  congrArg Prod.fst (alike.face_eq k)

theorem role_eq (alike : r.AlikeBut q s) (k : Handle) : (r.peer k).role = (s.peer k).role :=
  congrArg (fun face => face.2.1) (alike.face_eq k)

theorem room_eq (alike : r.AlikeBut q s) (k : Handle) : (r.peer k).room = (s.peer k).room :=
  congrArg (fun face => face.2.2) (alike.face_eq k)

theorem idOf_eq (alike : r.AlikeBut q s) : r.idOf = s.idOf := funext alike.id_eq

theorem room?_eq (alike : r.AlikeBut q s) (code : Option String) : r.room? code = s.room? code := by
  cases code with
  | none => rfl
  | some code =>
    change Table.find? r.rooms code = Table.find? s.rooms code
    rw [alike.rooms]

theorem noted (alike : r.AlikeBut q s) (e f : Event) : (r.noted e).AlikeBut q (s.noted f) :=
  ⟨alike.rooms, alike.codes, alike.others, alike.face⟩

theorem changed (alike : r.AlikeBut q s) {h : Handle} {f : Connection → Connection}
    (faces : ∀ c d : Connection, c.face = d.face → (f c).face = (f d).face) {r' s' : Relay}
    (rooms : r'.rooms = r.rooms) (rooms' : s'.rooms = s.rooms)
    (codes : r'.codes = r.codes) (codes' : s'.codes = s.codes)
    (peer : ∀ k, r'.peer k = if k = h then f (r.peer h) else r.peer k)
    (peer' : ∀ k, s'.peer k = if k = h then f (s.peer h) else s.peer k) : r'.AlikeBut q s' where
  rooms := by rw [rooms, rooms', alike.rooms]
  codes := by rw [codes, codes', alike.codes]
  others k other := by
    rw [peer, peer']
    split
    · subst k
      rw [alike.others h other]
    · exact alike.others k other
  face := by
    rw [peer, peer']
    split
    · exact faces _ _ (alike.face_eq h)
    · exact alike.face

theorem setPeer (alike : r.AlikeBut q s) (h : Handle) {f : Connection → Connection}
    (faces : ∀ c d : Connection, c.face = d.face → (f c).face = (f d).face) :
    (r.setPeer h (f (r.peer h))).AlikeBut q (s.setPeer h (f (s.peer h))) :=
  alike.changed faces rfl rfl rfl rfl (peer_setPeer r h · _) (peer_setPeer s h · _)

theorem offered (alike : r.AlikeBut q s) (h : Handle) (m : Message) (e f : Event) :
    (r.offered h m e).AlikeBut q (s.offered h m f) := by
  refine alike.changed (f := fun c => c.offered m) ?_ (rooms_offered r h m e)
    (rooms_offered s h m f) (codes_offered r h m e) (codes_offered s h m f)
    (peer_offered r h · m e) (peer_offered s h · m f)
  intro c d same
  simpa [Connection.face] using same

theorem released (alike : r.AlikeBut q s) (h : Handle) :
    (r.released h).AlikeBut q (s.released h) := by
  refine alike.changed (f := Connection.released) ?_ (rooms_released r h) (rooms_released s h)
    (codes_released r h) (codes_released s h) (peer_released r h ·) (peer_released s h ·)
  intro c d same
  have id : c.id = d.id := congrArg Prod.fst same
  have role : c.role = d.role := congrArg (fun face => face.2.1) same
  simp [Connection.face, id, role]

theorem closed (alike : r.AlikeBut q s) (h : Handle) : (r.closed h).AlikeBut q (s.closed h) := by
  refine alike.changed (f := Connection.closed) ?_ (rooms_closed r h) (rooms_closed s h)
    (codes_closed r h) (codes_closed s h) (peer_closed r h ·) (peer_closed s h ·)
  intro c d same
  simpa [Connection.face] using same

theorem written (alike : r.AlikeBut q s) (h : Handle) (socket : Nat → CallOutcome)
    (held : Option Item) : (r.written h socket held).AlikeBut q (s.written h socket held) := by
  refine alike.changed (f := fun c => c.written socket held) ?_ (rooms_written r h socket held)
    (rooms_written s h socket held) (codes_written r h socket held)
    (codes_written s h socket held) (peer_written r h · socket held)
    (peer_written s h · socket held)
  intro c d same
  simpa [Connection.face] using same

private theorem written_own (alike : r.AlikeBut q s) (socket : Nat → CallOutcome)
    (held : Option Item) : (r.written q socket held).AlikeBut q s where
  rooms := (rooms_written r q socket held).trans alike.rooms
  codes := (codes_written r q socket held).trans alike.codes
  others k other := by
    rw [peer_written, if_neg other]
    exact alike.others k other
  face := by
    rw [peer_written_self, ← alike.face]
    simp [Connection.face]

end AlikeBut

/-- Two actions run side by side, from relays that differ in one connection only: both succeed, with
answers that are related, or both fail for the same reason, and the relays still differ in that
connection only. -/
def Parallel {α β : Type} (q : Handle) (related : α → β → Prop) (a : Action α) (b : Action β) :
    Prop :=
  ∀ r s : Relay, r.AlikeBut q s →
    match a.run r, b.run s with
    | .ok x r', .ok y s' => related x y ∧ r'.AlikeBut q s'
    | .error e r', .error f s' => e = f ∧ r'.AlikeBut q s'
    | _, _ => False

section Rules

variable {α β γ δ : Type} {q : Handle} {related : α → β → Prop} {after : γ → δ → Prop}

theorem parallel_pure {x : α} {y : β} (same : related x y) :
    Parallel q related (pure x) (pure y) :=
  fun _ _ alike => ⟨same, alike⟩

theorem parallel_throw (fault : Fault) : Parallel q related (throw fault) (throw fault) :=
  fun _ _ alike => ⟨rfl, alike⟩

theorem parallel_bind {a : Action α} {b : Action β} {f : α → Action γ} {g : β → Action δ}
    (first : Parallel q related a b)
    (next : ∀ x y, related x y → Parallel q after (f x) (g y)) :
    Parallel q after (a >>= f) (b >>= g) := by
  intro r s alike
  have both := first r s alike
  rw [EStateM.run_bind, EStateM.run_bind]
  cases ranA : a.run r with
  | ok x r' =>
    cases ranB : b.run s with
    | ok y s' =>
      rw [ranA, ranB] at both
      exact next x y both.1 r' s' both.2
    | error f s' =>
      rw [ranA, ranB] at both
      exact both.elim
  | error e r' =>
    cases ranB : b.run s with
    | ok y s' =>
      rw [ranA, ranB] at both
      exact both.elim
    | error f s' =>
      rw [ranA, ranB] at both
      exact both

theorem parallel_get : Parallel q (AlikeBut q) get get := fun _ _ alike => ⟨alike, alike⟩

theorem parallel_modify {f g : Relay → Relay}
    (keeps : ∀ r s : Relay, r.AlikeBut q s → (f r).AlikeBut q (g s)) :
    Parallel q Eq (modify f) (modify g) :=
  fun r s alike => ⟨rfl, keeps r s alike⟩

theorem parallel_of_run {a b : Action Unit} {f g : Relay → Relay}
    (runA : ∀ r, a.run r = .ok () (f r)) (runB : ∀ r, b.run r = .ok () (g r))
    (keeps : ∀ r s : Relay, r.AlikeBut q s → (f r).AlikeBut q (g s)) : Parallel q Eq a b := by
  intro r s alike
  rw [runA, runB]
  exact ⟨rfl, keeps r s alike⟩

theorem parallel_forM {f g : Handle → Action Unit} (hs : List Handle)
    (body : ∀ h, Parallel q Eq (f h) (g h)) : Parallel q Eq (hs.forM f) (hs.forM g) := by
  induction hs with
  | nil => exact parallel_pure rfl
  | cons h rest ih => exact parallel_bind (body h) fun _ _ _ => ih

end Rules

section Actions

variable (q : Handle)

theorem parallel_report (e f : Event) : Parallel q Eq (report e) (report f) :=
  parallel_of_run (fun _ => rfl) (fun _ => rfl) fun _ _ alike => alike.noted e f

theorem parallel_modifyPeer (h : Handle) {f : Connection → Connection}
    (faces : ∀ c d : Connection, c.face = d.face → (f c).face = (f d).face) :
    Parallel q Eq (modifyPeer h f) (modifyPeer h f) :=
  parallel_modify fun _ _ alike => alike.setPeer h faces

theorem parallel_sendOrReport (h : Handle) (m : Message) (e f : Event) :
    Parallel q Eq (sendOrReport h m e) (sendOrReport h m f) :=
  parallel_of_run (run_sendOrReport · h m e) (run_sendOrReport · h m f)
    fun _ _ alike => alike.offered h m e f

theorem parallel_reply (h : Handle) (m : Message) : Parallel q Eq (reply h m) (reply h m) :=
  parallel_bind parallel_get fun _ _ _ => parallel_sendOrReport q h m _ _

theorem parallel_sendToHost (room : Room) (m : Message) :
    Parallel q Eq (sendToHost room m) (sendToHost room m) :=
  parallel_bind parallel_get fun _ _ _ => parallel_sendOrReport q room.host m _ _

/-- The loop over the members goes on past the one who takes the message in one relay only. -/
theorem parallel_broadcast (room : Room) (m : Message) :
    Parallel q Eq (broadcast room m) (broadcast room m) := by
  refine parallel_forM room.members ?_
  intro h
  exact parallel_bind parallel_get fun _ _ _ => parallel_sendOrReport q h m _ _

theorem parallel_closeMembers (room : Room) :
    Parallel q Eq (closeMembers room) (closeMembers room) :=
  parallel_forM room.members fun h =>
    parallel_of_run (run_release · h) (run_release · h) fun _ _ alike => alike.released h

theorem parallel_liveRoom (code : String) : Parallel q Eq (liveRoom code) (liveRoom code) := by
  refine parallel_bind parallel_get ?_
  intro r s alike
  rw [alike.rooms]
  cases Table.find? s.rooms code with
  | none => exact parallel_throw _
  | some room => exact parallel_pure rfl

private theorem parallel_setRoom (code : String) {f : Relay → Room}
    (same : ∀ r s : Relay, r.AlikeBut q s → f r = f s) :
    Parallel q Eq (modify fun r => r.setRoom code (f r))
      (modify fun r => r.setRoom code (f r)) := by
  refine parallel_modify ?_
  intro r s alike
  refine ⟨?_, alike.codes, alike.others, alike.face⟩
  rw [rooms_setRoom, rooms_setRoom, alike.rooms, same r s alike]

theorem parallel_seatMember (code : String) (h : Handle) :
    Parallel q Eq (seatMember code h) (seatMember code h) := by
  refine parallel_bind (parallel_liveRoom q code) ?_
  rintro room _ rfl
  refine parallel_bind parallel_get ?_
  intro r s alike
  -- the complaint about somebody without a seat shows id, role and room only
  have shown : (r.peer h).describe = (s.peer h).describe := by
    unfold Connection.describe
    rw [alike.id_eq, alike.role_eq, alike.room_eq]
  dsimp only
  rw [alike.role_eq, shown]
  cases room.add? (s.peer h).role h with
  | none => exact parallel_throw _
  | some seated => exact parallel_setRoom q code fun _ _ _ => rfl

theorem parallel_unseatMember (code : String) (h : Handle) :
    Parallel q Eq (unseatMember code h) (unseatMember code h) := by
  refine parallel_bind (parallel_liveRoom q code) ?_
  rintro room _ rfl
  exact parallel_setRoom q code fun r s alike => by rw [alike.idOf_eq]

theorem parallel_rejectSecondRole (h : Handle) :
    Parallel q Eq (rejectSecondRole h) (rejectSecondRole h) := by
  refine parallel_bind parallel_get ?_
  intro r s alike
  dsimp only
  rw [alike.role_eq, alike.id_eq, alike.room_eq]
  by_cases fresh : (s.peer h).role = .unassigned
  · simp only [fresh, if_true]
    exact parallel_pure rfl
  · simp only [fresh, if_false]
    refine parallel_bind (parallel_report q _ _) fun _ _ _ => ?_
    exact parallel_bind (parallel_reply q h _) fun _ _ _ => parallel_pure rfl

theorem parallel_generateCode : Parallel q Eq generateCode generateCode := by
  intro r s alike
  -- the search looks at the live rooms and the source of codes, at no connection
  have search : r.codeSearch = s.codeSearch := by
    rw [codeSearch, codeSearch, alike.rooms, alike.codes]
  have searched : r.searched.AlikeBut q s.searched := by
    refine ⟨alike.rooms, ?_, alike.others, alike.face⟩
    rw [codes_searched, codes_searched, search]
  rw [run_generateCode, run_generateCode, search]
  cases s.codeSearch.outcome with
  | found code => exact ⟨rfl, searched⟩
  | failed fault => exact ⟨rfl, searched⟩
  | endless => exact ⟨rfl, searched⟩

theorem parallel_createRoom (h : Handle) : Parallel q Eq (createRoom h) (createRoom h) := by
  refine parallel_bind (parallel_rejectSecondRole q h) ?_
  rintro assigned _ rfl
  cases assigned with
  | true => exact parallel_pure rfl
  | false =>
    refine parallel_bind (parallel_generateCode q) ?_
    rintro code _ rfl
    refine parallel_bind (parallel_setRoom q code fun _ _ _ => rfl) fun _ _ _ => ?_
    refine parallel_bind (parallel_modifyPeer q h ?_) fun _ _ _ => ?_
    · intro c d same
      have id : c.id = d.id := congrArg Prod.fst same
      simp only [Connection.face, Connection.standing, id]
    refine parallel_bind (parallel_reply q h _) fun _ _ _ => ?_
    refine parallel_bind parallel_get fun r s alike => ?_
    exact parallel_bind (parallel_report q _ _) fun _ _ _ => parallel_pure rfl

theorem parallel_roomForSeat (h : Handle) (requested : Option String) :
    Parallel q Eq (roomForSeat h requested) (roomForSeat h requested) := by
  refine parallel_bind (parallel_rejectSecondRole q h) ?_
  rintro assigned _ rfl
  cases assigned with
  | true => exact parallel_pure rfl
  | false =>
    refine parallel_bind parallel_get ?_
    intro r s alike
    rw [alike.room?_eq]
    cases s.room? requested with
    | some room => exact parallel_pure rfl
    | none =>
      refine parallel_bind (parallel_report q _ _) fun _ _ _ => ?_
      exact parallel_bind (parallel_reply q h _) fun _ _ _ => parallel_pure rfl

theorem parallel_takeSeat (seat : Seat) (h : Handle) (requested : Option String) :
    Parallel q Eq (takeSeat seat h requested) (takeSeat seat h requested) := by
  refine parallel_bind (parallel_roomForSeat q h requested) ?_
  rintro found _ rfl
  cases found with
  | none => exact parallel_pure rfl
  | some room =>
    refine parallel_bind (parallel_modifyPeer q h ?_) fun _ _ _ => ?_
    · intro c d same
      have id : c.id = d.id := congrArg Prod.fst same
      simp only [Connection.face, Connection.standing, id]
    refine parallel_bind (parallel_seatMember q room.code h) fun _ _ _ => ?_
    refine parallel_bind (parallel_reply q h _) fun _ _ _ => ?_
    refine parallel_bind parallel_get fun r s alike => ?_
    rw [alike.idOf_eq]
    have ending : Parallel q Eq
        (do
          report (.seatTaken seat (s.idOf h) room.code)
          return (← get).room? (some room.code))
        (do
          report (.seatTaken seat (s.idOf h) room.code)
          return (← get).room? (some room.code)) := by
      refine parallel_bind (parallel_report q _ _) fun _ _ _ => ?_
      exact parallel_bind parallel_get fun _ _ alike => parallel_pure (alike.room?_eq _)
    cases seat with
    | player => exact parallel_bind (parallel_sendToHost q room _) fun _ _ _ => ending
    | spectator => exact ending

theorem parallel_deleteRoom (code : String) :
    Parallel q Eq (deleteRoom code) (deleteRoom code) := by
  refine parallel_bind parallel_get ?_
  intro r s alike
  rw [alike.rooms]
  split
  · refine parallel_bind (parallel_modify ?_) fun _ _ _ => parallel_report q _ _
    intro r s alike
    exact ⟨by rw [alike.rooms], alike.codes, alike.others, alike.face⟩
  · exact parallel_pure rfl

theorem parallel_disconnect (h : Handle) : Parallel q Eq (disconnect h) (disconnect h) := by
  refine parallel_bind parallel_get ?_
  intro r s alike
  dsimp only
  rw [alike.room_eq, alike.room?_eq, alike.role_eq]
  cases s.room? (s.peer h).room with
  | none => exact parallel_pure rfl
  | some room =>
    by_cases role : (s.peer h).role = .host
    · simp only [role, if_true]
      exact parallel_bind (parallel_closeMembers q room) fun _ _ _ =>
        parallel_deleteRoom q room.code
    · simp only [role, if_false]
      exact parallel_bind (parallel_unseatMember q room.code h) fun _ _ _ => parallel_report q _ _

theorem parallel_relayInput (h : Handle) (payload : Json.Value) :
    Parallel q Eq (relayInput h payload) (relayInput h payload) := by
  refine parallel_bind parallel_get ?_
  intro r s alike
  dsimp only
  rw [alike.room_eq, alike.room?_eq, alike.role_eq, alike.id_eq, alike.idOf_eq]
  cases s.room? (s.peer h).room with
  | none => exact parallel_report q _ _
  | some room =>
    by_cases held : room.holds s.idOf h
    · simp only [held, if_true]
      cases (s.peer h).role with
      | player => exact parallel_sendToHost q room _
      | host => exact parallel_broadcast q room _
      | spectator => exact parallel_report q _ _
      | unassigned => exact parallel_pure rfl
    · simp only [held, Bool.false_eq_true, if_false]
      exact parallel_report q _ _

theorem parallel_handle (h : Handle) (frame : Frame) :
    Parallel q Eq (handle h frame) (handle h frame) := by
  unfold handle
  cases Request.ofFrame frame with
  | error _ => exact parallel_bind parallel_get fun _ _ _ => parallel_report q _ _
  | ok request =>
    cases request with
    | host => exact parallel_bind (parallel_createRoom q h) fun _ _ _ => parallel_pure rfl
    | seat seat code =>
      exact parallel_bind (parallel_takeSeat q seat h (some code)) fun _ _ _ => parallel_pure rfl
    | input move state =>
      refine parallel_bind parallel_get ?_
      intro r s alike
      rw [alike.role_eq]
      split
      · exact parallel_relayInput q h _
      · exact parallel_relayInput q h _

theorem parallel_action (call : Call) : Parallel q Eq call.action call.action := by
  cases call with
  | arrive h id capacity =>
    exact parallel_modifyPeer q h (f := fun _ => .new id capacity) fun _ _ _ => rfl
  | frame h frame => exact parallel_handle q h frame
  | host h => exact parallel_bind (parallel_createRoom q h) fun _ _ _ => parallel_pure rfl
  | seat seat h requested =>
    exact parallel_bind (parallel_takeSeat q seat h requested) fun _ _ _ => parallel_pure rfl
  | input h payload => exact parallel_relayInput q h payload
  | disconnect h => exact parallel_disconnect q h
  | close h =>
    exact parallel_of_run (run_close · h) (run_close · h) fun _ _ alike => alike.closed h
  | detach h =>
    exact parallel_modifyPeer q h (f := fun c => { c with isOpen := false }) fun _ _ same => same
  | write h socket held =>
    have run (r : Relay) :
        (Call.write h socket held).action.run r = .ok () (r.written h socket held) := by
      simp only [Call.action, EStateM.run_bind, run_runWriter, EStateM.run_pure]
    exact parallel_of_run run run fun _ _ alike => alike.written h socket held
  | refill codes =>
    exact parallel_modify fun _ _ alike => ⟨alike.rooms, rfl, alike.others, alike.face⟩

end Actions

/-! ### Runs side by side -/

theorem AlikeBut.after {q : Handle} {r s : Relay} (alike : r.AlikeBut q s) (call : Call) :
    (r.after call).AlikeBut q (s.after call) := by
  have both := parallel_action q call r s alike
  unfold Relay.after
  cases ran : call.action.run r with
  | ok _ r' =>
    cases also : call.action.run s with
    | ok _ s' =>
      rw [ran, also] at both
      exact both.2
    | error _ s' =>
      rw [ran, also] at both
      exact both.elim
  | error _ r' =>
    cases also : call.action.run s with
    | ok _ s' =>
      rw [ran, also] at both
      exact both.elim
    | error _ s' =>
      rw [ran, also] at both
      exact both.2

/-- The writer of the one connection may run between the calls as often as it likes. -/
private theorem AlikeBut.afterAll_shared {q : Handle} {r s : Relay} (alike : r.AlikeBut q s)
    (calls : List Call) :
    (r.afterAll calls).AlikeBut q (s.afterAll (calls.filter (Call.sparesWriter q))) := by
  induction calls generalizing r s with
  | nil => exact alike
  | cons call rest ih =>
    by_cases spares : call.sparesWriter q
    · rw [List.filter_cons_of_pos spares]
      exact ih (alike.after call)
    · rw [List.filter_cons_of_neg spares]
      refine ih ?_
      cases call with
      | write h socket held =>
        obtain rfl : h = q := by simpa [Call.sparesWriter] using spares
        rw [after_write]
        exact alike.written_own socket held
      | _ => exact absurd rfl spares

/-- Take two relays that agree in everything but what waits for one connection and whether it is
open. Under the same calls, with any runs of the writer of that connection in between in either
relay, they agree in everything else for ever: rooms, roles, codes, and the outboxes of all
others. -/
theorem alikeBut_afterAll {q : Handle} {r s : Relay} (alike : r.AlikeBut q s)
    {calls others : List Call}
    (same : calls.filter (Call.sparesWriter q) = others.filter (Call.sparesWriter q)) :
    (r.afterAll calls).AlikeBut q (s.afterAll others) := by
  -- both are compared with a run of the second relay in which that writer stands still
  have one : (r.afterAll calls).AlikeBut q (s.afterAll (calls.filter (Call.sparesWriter q))) :=
    alike.afterAll_shared calls
  have two : (s.afterAll others).AlikeBut q (s.afterAll (others.filter (Call.sparesWriter q))) :=
    (AlikeBut.refl q s).afterAll_shared others
  exact one.trans (same ▸ two.symm)

/-- A host with two players in its room. -/
def threesome : Relay :=
  (initial (.listed ["a"])).afterAll
    [.arrive 0 "h" 2, .arrive 1 "p" 1, .arrive 2 "q" 2, .host 0, .seat .player 1 (some "a"),
      .seat .player 2 (some "a")]

/-- The first player has a full outbox in one relay; in the other its socket is dead. The host, the
second player and the end of the room are the same in both. -/
theorem alikeBut_afterAll_of_dead_player :
    let dead := threesome.setPeer 1
      { threesome.peer 1 with isOpen := false, outbox := .empty 7 }
    threesome.AlikeBut 1 dead ∧
      (threesome.afterAll [.input 0 .null, .input 1 .null, .disconnect 0]).AlikeBut 1
        (dead.afterAll [.write 1 (fun _ => .failed .peerGone) none, .input 0 .null,
          .input 1 .null, .write 1 (fun _ => .accepted) none, .disconnect 0]) := by
  intro dead
  have alike : threesome.AlikeBut 1 dead := by
    refine ⟨rfl, rfl, ?_, ?_⟩
    · intro k other
      exact (peer_setPeer_of_ne threesome _ other).symm
    · rw [peer_setPeer_self]
      rfl
  exact ⟨alike, alikeBut_afterAll alike rfl⟩

end Relay

end GameRelay
