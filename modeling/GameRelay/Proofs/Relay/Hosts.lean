import GameRelay.Proofs.Relay.Differences
import GameRelay.Proofs.Relay.Journal

/-!
# Whether the host of a live room can be reached

Only the end of the session of its host ends a room. Until then a host without a vanished peer is
open: nobody else closes it, and only members are cut loose. When its writer has met a failure that
a vanished peer causes, the host is closed, and its room stays until its session ends. What is sent
to it until then does not come into its outbox, and is reported instead.
-/

set_option autoImplicit false
set_option relaxedAutoImplicit false

namespace GameRelay

namespace Relay

/-- A connection that hosts a room or has no role. -/
def Seatless (r : Relay) (h : Handle) : Prop := ∀ seat : Seat, (r.peer h).role ≠ seat.role

/-- Run on a socket, the writer of a connection meets a failure that a vanished peer causes. -/
def BreaksOff (r : Relay) (h : Handle) (socket : Nat → CallOutcome) (held : Option Item) : Prop :=
  ∃ run next fault, (runWriter h socket held).run r = .ok run next ∧ run.ending = .failed fault ∧
    fault.isExpected = true

theorem breaksOff_iff (r : Relay) (h : Handle) (socket : Nat → CallOutcome) (held : Option Item) :
    r.BreaksOff h socket held ↔
      ∃ fault, (Writer.run socket 0 (Writer.queue held (r.peer h).outbox.items)).ending =
        .failed fault ∧ fault.isExpected = true := by
  constructor
  · rintro ⟨run, next, fault, runs, ending, expected⟩
    rw [run_runWriter] at runs
    cases runs
    exact ⟨fault, ending, expected⟩
  · rintro ⟨fault, ending, expected⟩
    exact ⟨_, _, fault, run_runWriter r h socket held, ending, expected⟩

/-- A writer leaves an open connection open unless it breaks off. -/
theorem isOpen_written_iff (r : Relay) (h : Handle) (socket : Nat → CallOutcome)
    (held : Option Item) :
    ((r.peer h).written socket held).isOpen ↔
      (r.peer h).isOpen ∧ ¬r.BreaksOff h socket held := by
  rw [breaksOff_iff, Connection.written]
  cases (Writer.run socket 0 (Writer.queue held (r.peer h).outbox.items)).ending with
  | failed fault => simp
  | closed => simp
  | idle => simp
  | holding item => simp

theorem seatless_before {r : Relay} (settled : r.Settled) {call : Call}
    (admissible : r.Admissible call) {h : Handle} (seatless : (r.after call).Seatless h) :
    r.Seatless h := by
  intro seat role
  rcases role_of_shift (shift_after settled admissible) h with same | ⟨fresh, _⟩
  · exact seatless seat (same.trans role)
  · exact seat.role_ne_unassigned (role.symm.trans fresh)

private theorem seatless_before_all {r : Relay} (settled : r.Settled) {calls : List Call}
    (proper : r.Proper calls) {h : Handle} (seatless : (r.afterAll calls).Seatless h) :
    r.Seatless h := by
  induction calls generalizing r with
  | nil => exact seatless
  | cons call rest ih =>
    exact seatless_before settled proper.1
      (ih (settled_after settled proper.1) proper.2 seatless)

private theorem isOpen_of_turn_eq {r : Relay} (settled : r.Settled) {h : Handle}
    {asked : Option Call}
    {c : Connection} (turn : r.Turn h asked c) (seatless : ∀ seat : Seat, c.role ≠ seat.role)
    (unclosed : asked ≠ some (.close h)) (attached : asked ≠ some (.detach h))
    (silent : ∀ socket held, asked ≠ some (.write h socket held)) :
    c.isOpen = (r.peer h).isOpen := by
  cases turn with
  | idle => rfl
  | opened => exact Connection.isOpen_offered _ _
  | seated => exact Connection.isOpen_offered _ _
  | released _ room _ _ live member =>
    -- whoever is cut loose has a seat, and keeps its role
    obtain ⟨seat, seated⟩ := (room.mem_members h).mp member
    have role : (r.peer h).released.role = (r.peer h).role :=
      congrArg Prod.fst (r.peer h).standing_released
    exact absurd (role.trans ((settled.fits live).role_of_mem seated)) (seatless seat)
  | closed => exact absurd rfl unclosed
  | detached => exact absurd rfl attached
  | written socket held => exact absurd rfl (silent socket held)
  | _ => exact Connection.isOpen_offered _ _

/-- A connection without a seat is open after a call exactly when it was open before and its writer
did not break off in it, unless the call closes or detaches it. -/
theorem isOpen_after_iff {r : Relay} (settled : r.Settled) {call : Call}
    (admissible : r.Admissible call) {h : Handle} (known : h ∈ r.known)
    (seatless : (r.after call).Seatless h) (unclosed : call ≠ .close h)
    (attached : call ≠ .detach h) :
    ((r.after call).peer h).isOpen ↔
      (r.peer h).isOpen ∧ ¬∃ socket held, call = .write h socket held ∧
        r.BreaksOff h socket held := by
  by_cases writes : ∃ socket held, call = .write h socket held
  · obtain ⟨socket, held, rfl⟩ := writes
    rw [after_write, peer_written_self, isOpen_written_iff]
    refine and_congr_right' (not_congr ⟨fun breaks => ⟨socket, held, rfl, breaks⟩, ?_⟩)
    rintro ⟨_, _, ⟨⟩, breaks⟩
    exact breaks
  · have sound : ¬∃ socket held, call = .write h socket held ∧ r.BreaksOff h socket held := by
      rintro ⟨socket, held, same, _⟩
      exact writes ⟨socket, held, same⟩
    rw [isOpen_of_turn_eq settled (turn_after settled admissible known) seatless
      (fun asks => unclosed (eq_of_asked asks rfl)) (fun asks => attached (eq_of_asked asks rfl))
      fun socket held asks => writes ⟨socket, held, eq_of_asked asks rfl⟩]
    exact (and_iff_left sound).symm

/-- What a frame has sent to the host of a room: a message, and what is reported in its place when
the host is closed. -/
inductive Sends (r : Relay) (room : Room) (h : Handle) (f : Frame) : Message → Event → Prop
  | news (role : (r.peer h).role = .unassigned)
    (asks : r.ask h f = some (.seat .player h (some room.code))) :
    Sends r room h f (.playerJoined (r.idOf h)) (.hostSkipped room.code (r.idOf room.host))
  | input (payload : Json.Value) (player : h ∈ room.players)
    (asks : r.ask h f = some (.input h payload)) :
    Sends r room h f (.input (r.idOf h) payload) (.hostSkipped room.code (r.idOf room.host))
  | answer (own : room.host = h)
    (asks : r.ask h f = some (.host h) ∨
      ∃ seat code, r.ask h f = some (.seat seat h (some code))) :
    Sends r room h f (.error alreadyInRoom) (.replyDropped (r.idOf h))

/-- What a frame does to the host of a room: it hears what is sent to it, and nothing else happens
to it. What is sent to a closed host is reported. -/
structure Reaches (r next : Relay) (room : Room) (h : Handle) (f : Frame) : Prop where
  told : ∀ m e, r.Sends room h f m e → (r.peer room.host).Hears (next.peer room.host) m
  untold : (∀ m e, ¬r.Sends room h f m e) → next.peer room.host = r.peer room.host
  skipped : (r.peer room.host).isOpen = false → ∀ m e, r.Sends room h f m e →
    next.peer room.host = r.peer room.host ∧
      ∃ fresh, next.journal = fresh ++ r.journal ∧ e ∈ fresh

private theorem mem_journal_offered {r : Relay} {h : Handle} (shut : (r.peer h).isOpen = false)
    (m : Message) (e : Event) : e ∈ (r.offered h m e).journal := by
  rw [offered, if_neg (Bool.eq_false_iff.mp shut)]
  exact List.mem_cons_self

private theorem mem_journal_announced {r base : Relay} {room : Room}
    (same : base.peer room.host = r.peer room.host) (shut : (r.peer room.host).isOpen = false)
    (h : Handle) :
    Event.hostSkipped room.code (r.idOf room.host) ∈ (base.announced .player h room).journal := by
  have id : base.idOf room.host = r.idOf room.host := congrArg Connection.id same
  rw [← id]
  exact mem_journal_offered ((congrArg Connection.isOpen same).trans shut) _ _

namespace Settled

variable {r : Relay} (settled : r.Settled) {room : Room}
  (live : Table.find? r.rooms room.code = some room)
include settled live

private theorem offered_of_sends {h : Handle} {f : Frame} {m : Message} {e : Event}
    (sends : r.Sends room h f m e) :
    (r.after (.frame h f)).peer room.host = (r.peer room.host).offered m ∧
      ((r.peer room.host).isOpen = false → e ∈ (r.after (.frame h f)).journal) := by
  have fits := settled.fits live
  cases sends with
  | news role asks =>
    have ne : room.host ≠ h := by
      rintro rfl
      exact settled.not_mem_of_unassigned live role List.mem_cons_self
    rw [after_frame_of_ask asks, after_of_ok _ (run_seat .player role live)]
    refine ⟨?_, fun shut => List.mem_cons_of_mem _ (mem_journal_announced ?_ shut h)⟩
    · rw [peer_seated r .player ne, if_neg ne, if_pos ⟨rfl, rfl⟩]
    · rw [peer_offered, if_neg ne, peer_setRoom, peer_setPeer, if_neg ne]
  | input payload player asks =>
    have seated : h ∈ room.occupants .player := player
    have inside := List.mem_cons_of_mem room.host ((room.mem_members h).mpr ⟨.player, seated⟩)
    have role : (r.peer h).role = .player := fits.role_of_mem seated
    have found : r.room? (r.peer h).room = some room := by
      rw [fits.code_of_mem inside]
      exact live
    rw [after_frame_of_ask asks, after_input, routed_of_inside found inside, role]
    exact ⟨(peer_offered r _ _ _ _).trans (if_pos rfl), fun shut => mem_journal_offered shut _ _⟩
  | answer own asks =>
    subst own
    have assigned : (r.peer room.host).role ≠ .unassigned := by
      rw [fits.role_of_host]
      exact nofun
    have rejects : r.after (.frame room.host f) = r.rejected room.host := by
      rcases asks with asks | ⟨seat, code, asks⟩
      · rw [after_frame_of_ask asks, after_of_ok _ (run_host_of_assigned assigned)]
      · rw [after_frame_of_ask asks, after_of_ok _ (run_seat_of_assigned seat (some code) assigned)]
    rw [rejects]
    refine ⟨(peer_rejected r _ _).trans (if_pos rfl), fun shut => ?_⟩
    have closed : ((r.noted (.requestRejected (r.peer room.host).id (r.peer room.host).role
        (r.peer room.host).room)).peer room.host).isOpen = false := shut
    exact mem_journal_offered closed _ _

private theorem eq_of_turn_of_unsent {h : Handle} {f : Frame} {c : Connection}
    (turn : r.Turn room.host (r.ask h f) c) (unsent : ∀ m e, ¬r.Sends room h f m e) :
    c = r.peer room.host := by
  have fits := settled.fits live
  have isHost : (r.peer room.host).role ≠ .unassigned := by
    rw [fits.role_of_host]
    exact nofun
  have actor {call : Call} (asks : r.ask h f = some call) : call.actor = some h := by
    rcases ask_cases asks with rfl | ⟨seat, code, rfl⟩ | ⟨payload, rfl⟩ <;> rfl
  have isRequest {call : Call} (asks : r.ask h f = some call) : call.isRequest = true := by
    rcases ask_cases asks with rfl | ⟨seat, code, rfl⟩ | ⟨payload, rfl⟩ <;> rfl
  generalize asks : r.ask h f = asked at turn
  cases turn with
  | idle => rfl
  | rejectedHost role =>
    obtain rfl := Option.some.inj (actor asks)
    exact absurd (.answer rfl (.inl asks)) (unsent _ _)
  | rejectedSeat seat requested role =>
    obtain rfl := Option.some.inj (actor asks)
    rcases ask_cases asks with same | ⟨_, code, same⟩ | ⟨_, same⟩ <;> cases same
    exact absurd (.answer rfl (.inr ⟨seat, code, asks⟩)) (unsent _ _)
  | opened code role free => exact absurd role isHost
  | refused seat requested role unknown => exact absurd role isHost
  | seated seat other role known => exact absurd role isHost
  | announced k other role also host =>
    obtain rfl := Option.some.inj (actor asks)
    obtain rfl := settled.eq_of_mem live also List.mem_cons_self (host ▸ List.mem_cons_self)
    exact absurd (.news role asks) (unsent _ _)
  | playerInput k payload other also player host =>
    obtain rfl := Option.some.inj (actor asks)
    obtain rfl := settled.eq_of_mem live also List.mem_cons_self (host ▸ List.mem_cons_self)
    exact absurd (.input payload player asks) (unsent _ _)
  | hostInput k payload other also host member =>
    obtain rfl :=
      settled.eq_of_mem live also List.mem_cons_self (List.mem_cons_of_mem _ member)
    exact absurd member fits.host_not_mem
  | _ => exact nomatch isRequest asks

omit live in
private theorem quiet : r.quiet.Settled where
  keys := settled.keys
  fits live :=
    have fits := settled.fits live
    ⟨fits.filed, fits.host, fits.seated, fits.once, fits.present⟩
  unassigned := settled.unassigned
  ids := settled.ids

theorem reaches {h : Handle} (known : h ∈ r.known) (f : Frame) :
    r.Reaches (r.after (.frame h f)) room h f := by
  have present := (settled.fits live).present room.host List.mem_cons_self
  have admissible : r.Admissible (.frame h f) := admissible_of_known known rfl rfl
  have turn := turn_after settled admissible present
  refine ⟨?_, settled.eq_of_turn_of_unsent live turn, ?_⟩
  · intro m e sends
    rw [(settled.offered_of_sends live sends).1]
    exact (r.peer room.host).hears_offered m
  · intro shut m e sends
    refine ⟨?_, r.reports (.frame h f), journal_after r _, ?_⟩
    · rw [(settled.offered_of_sends live sends).1]
      exact if_neg (Bool.eq_false_iff.mp shut)
    · -- what a call reports does not depend on the journal before it
      have sending : r.quiet.Sends room h f m e := by
        cases sends with
        | news role asks => exact .news role asks
        | input payload player asks => exact .input payload player asks
        | answer own asks => exact .answer own asks
      exact (settled.quiet.offered_of_sends live sending).2 shut

end Settled

end Relay

namespace Sessions

/-- In a step the writer of a connection breaks off. -/
def Loses (s : Sessions) (h : Handle) (step : Step) : Prop :=
  ∃ socket held, step = .write h socket held ∧ s.relay.BreaksOff h socket held

theorem not_loses {s : Sessions} {h : Handle} {step : Step}
    (silent : ∀ socket held, step ≠ .write h socket held) : ¬s.Loses h step := by
  rintro ⟨socket, held, same, _⟩
  exact silent socket held same

/-- In the course of some steps the writer of a connection broke off. -/
def Lost (codes : CodeSource) (steps : List Step) (h : Handle) : Prop :=
  ∃ before step, before ++ [step] <+: steps ∧ ((initial codes).afterAll before).Loses h step

theorem lost_concat_iff (codes : CodeSource) (steps : List Step) (step : Step) (h : Handle) :
    Lost codes (steps ++ [step]) h ↔
      Lost codes steps h ∨ ((initial codes).afterAll steps).Loses h step := by
  constructor
  · rintro ⟨before, last, early, loses⟩
    rcases List.prefix_concat_iff.mp early with same | early
    · obtain ⟨rfl, one⟩ := List.append_inj' same rfl
      cases one
      exact .inr loses
    · exact .inl ⟨before, last, early, loses⟩
  · rintro (⟨before, last, early, loses⟩ | loses)
    · exact ⟨before, last, early.trans (List.prefix_append steps [step]), loses⟩
    · exact ⟨steps, step, List.prefix_refl _, loses⟩

theorem isOpen_after_step_iff {s : Sessions} {step : Step} (settled : s.relay.Settled)
    (allowed : s.Allowed step) {h : Handle} (known : h ∈ s.relay.known)
    (present : h ∉ (s.after step).finished) (seatless : (s.after step).relay.Seatless h) :
    ((s.after step).relay.peer h).isOpen ↔ (s.relay.peer h).isOpen ∧ ¬s.Loses h step := by
  have proper := proper_of_allowed settled allowed
  have single {call : Call} (admissible : s.relay.Admissible call)
      (seatless : (s.relay.after call).Seatless h) (unclosed : call ≠ .close h)
      (attached : call ≠ .detach h) (silent : ∀ socket held, call ≠ .write h socket held) :
      ((s.relay.after call).peer h).isOpen ↔ (s.relay.peer h).isOpen := by
    rw [Relay.isOpen_after_iff settled admissible known seatless unclosed attached]
    refine and_iff_left ?_
    rintro ⟨socket, held, same, _⟩
    exact silent socket held same
  cases step with
  | enter k id capacity =>
    have quiet : ¬s.Loses h (.enter k id capacity) := not_loses nofun
    exact (single proper.1 seatless nofun nofun nofun).trans (and_iff_left quiet).symm
  | frame k f =>
    have quiet : ¬s.Loses h (.frame k f) := not_loses nofun
    exact (single proper.1 seatless nofun nofun nofun).trans (and_iff_left quiet).symm
  | refill codes =>
    have quiet : ¬s.Loses h (.refill codes) := not_loses nofun
    exact (single proper.1 seatless nofun nofun nofun).trans (and_iff_left quiet).symm
  | write k socket held =>
    refine (Relay.isOpen_after_iff settled proper.1 known seatless nofun nofun).trans
      (and_congr_right' (not_congr ⟨?_, ?_⟩))
    · rintro ⟨_, _, ⟨⟩, breaks⟩
      exact ⟨_, _, rfl, breaks⟩
    · rintro ⟨_, _, ⟨⟩, breaks⟩
      exact ⟨_, _, rfl, breaks⟩
  | leave k =>
    have other : k ≠ h := by
      rintro rfl
      exact present List.mem_cons_self
    obtain ⟨detaches, disconnects, _⟩ := proper
    have between := Relay.settled_after settled detaches
    -- somebody else is noted as gone first, and its session is ended after that
    have gone := single detaches (Relay.seatless_before between disconnects seatless) nofun
      (fun same => other (Call.detach.inj same)) nofun
    have ended := Relay.isOpen_after_iff between disconnects
      (Relay.mem_known_after settled detaches known) seatless nofun nofun
    have quiet : ¬s.Loses h (.leave k) := not_loses nofun
    have silent : ¬∃ socket held, Call.disconnect k = .write h socket held ∧
        (s.relay.after (.detach k)).BreaksOff h socket held := by
      rintro ⟨_, _, ⟨⟩, _⟩
    calc
      _ ↔ _ := ended.trans (and_iff_left silent)
      _ ↔ (s.relay.peer h).isOpen := gone
      _ ↔ _ := (and_iff_left quiet).symm

/-- Of all sessions that go on, those without a seat are open as long as their writers have not
broken off, where some writers have. -/
structure Audible (s : Sessions) (lost : Handle → Prop) : Prop where
  settled : s.relay.Settled
  come : ∀ h, lost h → h ∈ s.relay.known
  isOpen_iff : ∀ h ∈ s.relay.known, h ∉ s.finished → s.relay.Seatless h →
    ((s.relay.peer h).isOpen ↔ ¬lost h)

theorem Audible.after {s : Sessions} {lost : Handle → Prop} (audible : s.Audible lost) {step : Step}
    (allowed : s.Allowed step) : (s.after step).Audible fun h => lost h ∨ s.Loses h step := by
  have settled := audible.settled
  have proper := proper_of_allowed settled allowed
  have grows {h : Handle} (known : h ∈ s.relay.known) : h ∈ (s.after step).relay.known :=
    Relay.mem_known_afterAll settled proper known
  have writes {h : Handle} (loses : s.Loses h step) : h ∈ s.relay.known := by
    obtain ⟨socket, held, rfl, _⟩ := loses
    exact allowed
  refine ⟨Relay.settled_afterAll settled proper, ?_, ?_⟩
  · rintro h (lost | loses)
    · exact grows (audible.come h lost)
    · exact grows (writes loses)
  · intro h known present seatless
    by_cases old : h ∈ s.relay.known
    · have before := Relay.seatless_before_all settled proper seatless
      have early : h ∉ s.finished := fun past => present (List.mem_append_right _ past)
      rw [isOpen_after_step_iff settled allowed old present seatless,
        audible.isOpen_iff h old early before, not_or]
    · -- a newcomer is open, and its writer has not run
      have fresh : ¬(lost h ∨ s.Loses h step) := by
        rintro (lost | loses)
        · exact old (audible.come h lost)
        · exact old (writes loses)
      refine iff_of_true ?_ fresh
      have newcomer : h ∈ step.calls.flatMap Call.newcomers := by
        have among : h ∈ (s.relay.afterAll step.calls).known := known
        rw [Relay.known_afterAll settled proper, List.mem_append] at among
        exact among.resolve_left old
      cases step with
      | enter k id capacity =>
        obtain rfl : h = k := by simpa [Step.calls] using newcomer
        exact congrArg Connection.isOpen (Relay.peer_setPeer_self s.relay h (.new id capacity))
      | _ => simp [Step.calls] at newcomer

theorem audible_afterAll (codes : CodeSource) (steps : List Step)
    (disciplined : (initial codes).Disciplined steps) :
    ((initial codes).afterAll steps).Audible (Lost codes steps) := by
  induction steps using List.reverseRecOn with
  | nil =>
    refine ⟨Relay.settled_initial codes, ?_, fun _ known => nomatch known⟩
    rintro h ⟨before, step, early, _⟩
    exact absurd (List.prefix_nil.mp early) (List.append_ne_nil_of_right_ne_nil before nofun)
  | append_singleton steps step ih =>
    obtain ⟨earlier, allowed, _⟩ := (disciplined_append _ steps [step]).mp disciplined
    have audible := (ih earlier).after allowed
    rw [afterAll_concat, funext fun h => propext (lost_concat_iff codes steps step h)]
    exact audible

/-- The host of a live room has a session that goes on, and is open unless its writer has broken
off, where some writers have. Open or not, it has its room until its session ends; what frames send
to a closed host is skipped and reported. When its session ends, its room ends at once and nobody
waits in it any more. -/
structure Hosted (s : Sessions) (lost : Handle → Prop) : Prop where
  present : ∀ entry ∈ s.relay.rooms, entry.2.host ∈ s.relay.known ∧ entry.2.host ∉ s.finished
  isOpen_iff : ∀ entry ∈ s.relay.rooms,
    (s.relay.peer entry.2.host).isOpen ↔ ¬lost entry.2.host
  hosting : ∀ h, h ∉ s.finished → (s.relay.peer h).role = .host →
    ∃ room, s.relay.room? (s.relay.peer h).room = some room ∧ room.host = h
  stays : ∀ entry ∈ s.relay.rooms, ∀ step, s.Allowed step → step ≠ .leave entry.2.host →
    ∃ later, Table.find? (s.after step).relay.rooms entry.1 = some later ∧
      later.host = entry.2.host
  reaches : ∀ entry ∈ s.relay.rooms, ∀ h f, s.Allowed (.frame h f) →
    s.relay.Reaches (s.after (.frame h f)).relay entry.2 h f
  shut : ∀ entry ∈ s.relay.rooms, (s.relay.peer entry.2.host).isOpen = false →
    ∀ step, s.Allowed step → (∀ socket held, step ≠ .write entry.2.host socket held) →
      (s.after step).relay.peer entry.2.host = s.relay.peer entry.2.host
  torn : ∀ entry ∈ s.relay.rooms,
    let next := s.after (.leave entry.2.host)
    next.relay.rooms = Table.erase s.relay.rooms entry.1 ∧
      ∀ k ∈ entry.2.members, (next.relay.peer k).room = none ∧ (next.relay.peer k).isOpen = false

private theorem torn_after_leave {s : Sessions} (settled : s.relay.Settled) {code : String}
    {room : Room} (live : Table.find? s.relay.rooms code = some room) :
    let next := s.after (.leave room.host)
    next.relay.rooms = Table.erase s.relay.rooms code ∧
      ∀ k ∈ room.members, (next.relay.peer k).room = none ∧ (next.relay.peer k).isOpen = false := by
  intro next
  obtain rfl := (settled.fits live).filed
  have admissible : s.relay.Admissible (.detach room.host) :=
    Relay.admissible_of_known ((settled.fits live).present room.host List.mem_cons_self) rfl rfl
  have between := Relay.settled_after settled admissible
  have ended : next.relay = (s.relay.after (.detach room.host)).ended room :=
    between.after_disconnect_of_host live
  rw [ended]
  refine ⟨Relay.rooms_ended _ room, fun k member => ?_⟩
  rw [Relay.peer_ended _ (settled.fits live).nodup_members, if_pos member]
  exact ⟨Connection.room_released _, Connection.isOpen_released _⟩

/-- A live room stays under its host until the session of the host ends. -/
private theorem stays_after_step {s : Sessions} {joined : Seat → Handle → Handle → Prop}
    (matched : s.relay.Matched s.finished joined) {room : Room}
    (live : Table.find? s.relay.rooms room.code = some room) {step : Step}
    (allowed : s.Allowed step) (stays : step ≠ .leave room.host) :
    ∃ later, Table.find? (s.after step).relay.rooms room.code = some later ∧
      later.host = room.host := by
  have proper := proper_of_allowed matched.settled allowed
  have single {r : Relay} (matched : r.Matched s.finished joined) {call : Call}
      (live : Table.find? r.rooms room.code = some room) (admissible : r.Admissible call)
      (active : ∀ h ∈ call.actor, h ∈ s.finished → ∃ socket held, call = .write h socket held)
      (stays : call ≠ .disconnect room.host) :
      ∃ later, Table.find? (r.after call).rooms room.code = some later ∧
        later.host = room.host := by
    obtain ⟨later, found, _, host, _⟩ := matched.goesOn_after admissible active live stays
    exact ⟨later, found, host⟩
  cases step with
  | enter k id capacity =>
    refine single matched live proper.1 ?_ nofun
    rintro h ⟨⟩ past
    exact absurd (matched.past _ past) allowed.1
  | frame k f =>
    refine single matched live proper.1 ?_ nofun
    rintro h ⟨⟩ past
    exact absurd past allowed.2
  | leave k =>
    refine single (matched.after_detach allowed.1 allowed.2) live proper.2.1 ?_ ?_
    · rintro h ⟨⟩ past
      exact absurd past allowed.2
    · rintro ⟨⟩
      exact stays rfl
  | write k socket held =>
    refine single matched live proper.1 ?_ nofun
    rintro h ⟨⟩ _
    exact ⟨socket, held, rfl⟩
  | refill codes => exact single matched live proper.1 nofun nofun

/-- A closed host stays as it is, but for what its own writer takes. -/
private theorem peer_host_after_step {s : Sessions} (settled : s.relay.Settled) {room : Room}
    (live : Table.find? s.relay.rooms room.code = some room)
    (shut : (s.relay.peer room.host).isOpen = false) {step : Step} (allowed : s.Allowed step)
    (silent : ∀ socket held, step ≠ .write room.host socket held) :
    (s.after step).relay.peer room.host = s.relay.peer room.host := by
  have known := (settled.fits live).present room.host List.mem_cons_self
  cases step with
  | enter k id capacity =>
    refine Relay.peer_setPeer_of_ne _ _ ?_
    rintro rfl
    exact allowed.1 known
  | frame k f =>
    have reaches := settled.reaches live allowed.1 f
    by_cases sends : ∃ m e, s.relay.Sends room k f m e
    · obtain ⟨m, e, sends⟩ := sends
      exact (reaches.skipped shut m e sends).1
    · exact reaches.untold fun m e sent => sends ⟨m, e, sent⟩
  | leave k =>
    obtain ⟨detaches, disconnects, _⟩ := proper_of_allowed settled allowed
    have between := Relay.settled_after settled detaches
    have detached : (s.relay.after (.detach k)).peer room.host = s.relay.peer room.host := by
      refine (Relay.peer_setPeer s.relay k room.host _).trans ?_
      split
      · subst k
        rw [← shut]
      · rfl
    have turn := Relay.turn_after between disconnects (Relay.mem_known_after settled detaches known)
    change (((s.relay.after (.detach k)).after (.disconnect k)).peer room.host) = _
    rw [← detached]
    generalize ((s.relay.after (.detach k)).after (.disconnect k)).peer room.host = c at turn ⊢
    cases turn with
    | idle => rfl
    | released h other role own also member =>
      obtain rfl :=
        settled.eq_of_mem live also List.mem_cons_self (List.mem_cons_of_mem _ member)
      exact absurd member (settled.fits live).host_not_mem
  | write k socket held =>
    have other : room.host ≠ k := by
      rintro rfl
      exact silent socket held rfl
    change (s.relay.after (.write k socket held)).peer room.host = _
    rw [Relay.after_write, Relay.peer_written, if_neg other]
  | refill codes => rfl

/-- However the sessions behind the endpoint interleave and whatever calls of their sockets fail,
a live room has a host whose session goes on. -/
theorem hosted_afterAll (codes : CodeSource) (steps : List Step)
    (disciplined : (initial codes).Disciplined steps) :
    ((initial codes).afterAll steps).Hosted (Lost codes steps) := by
  have matched := matched_afterAll codes steps disciplined
  have audible := audible_afterAll codes steps disciplined
  have settled := matched.settled
  generalize (initial codes).afterAll steps = s at matched audible settled ⊢
  have live {entry : String × Room} (member : entry ∈ s.relay.rooms) :
      Table.find? s.relay.rooms entry.1 = some entry.2 :=
    Table.find?_of_mem settled.keys member
  have present {entry : String × Room} (member : entry ∈ s.relay.rooms) :
      entry.2.host ∈ s.relay.known ∧ entry.2.host ∉ s.finished := by
    refine ⟨(settled.fits (live member)).present _ List.mem_cons_self, fun past => ?_⟩
    exact matched.gone _ past (settled.mem_housed.mpr ⟨_, _, live member, List.mem_cons_self⟩)
  have own {entry : String × Room} (member : entry ∈ s.relay.rooms) :
      Table.find? s.relay.rooms entry.2.code = some entry.2 := by
    rw [(settled.fits (live member)).filed]
    exact live member
  have hosting := (accounted_of_matched matched).hosting
  refine ⟨fun _ member => present member, ?_, hosting, ?_, ?_, ?_, ?_⟩
  · intro entry member
    obtain ⟨known, present⟩ := present member
    have seatless : s.relay.Seatless entry.2.host := by
      intro seat role
      exact seat.role_ne_host (role.symm.trans (settled.fits (live member)).role_of_host)
    exact audible.isOpen_iff entry.2.host known present seatless
  · intro entry member step allowed stays
    rw [← (settled.fits (live member)).filed]
    exact stays_after_step matched (own member) allowed stays
  · intro entry member h f allowed
    exact settled.reaches (own member) allowed.1 f
  · intro entry member shut step allowed silent
    exact peer_host_after_step settled (own member) shut allowed silent
  · intro entry member
    exact torn_after_leave settled (live member)

/-- A host whose peer vanishes while its first answer is written: a player joins all the same. -/
def breaking : List Step :=
  [.enter 0 "h" 4, .enter 1 "p" 4, .frame 0 (.text "\x7b\"type\":\"host\"\x7d"),
    .write 0 (fun _ => .failed .peerGone) none,
    .frame 1 (.text "\x7b\"type\":\"join\",\"roomCode\":\"a\"\x7d")]

theorem hosted_after_breaking :
    (initial (.listed ["a"])).Disciplined breaking ∧
      ((initial (.listed ["a"])).afterAll breaking).Hosted (Lost (.listed ["a"]) breaking) :=
  ⟨by decide +kernel, hosted_afterAll _ _ (by decide +kernel)⟩

/-- The host of a live room need not be open. -/
theorem not_hosts_open :
    ¬∀ (codes : CodeSource) (steps : List Step), (initial codes).Disciplined steps →
      ∀ entry ∈ ((initial codes).afterAll steps).relay.rooms,
        (((initial codes).afterAll steps).relay.peer entry.2.host).isOpen := by
  intro everywhere
  have disciplined : (initial (.listed ["a"])).Disciplined breaking := by decide +kernel
  have live : ("a", ⟨"a", 0, [1], []⟩) ∈
      ((initial (.listed ["a"])).afterAll breaking).relay.rooms := by decide +kernel
  have shut : (((initial (.listed ["a"])).afterAll breaking).relay.peer 0).isOpen = false := by
    decide +kernel
  exact Bool.false_ne_true (shut.symm.trans (everywhere _ _ disciplined _ live))

end Sessions

end GameRelay
