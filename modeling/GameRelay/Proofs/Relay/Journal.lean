import GameRelay.Proofs.Relay.Departures

/-!
# The journal is only written

No action of a relay looks at what was reported before. So an action goes the same way whatever
stands in the journal already, and puts the same reports in front of it: what a call reports depends
on the connections, the rooms and the source of codes only.
-/

set_option autoImplicit false
set_option relaxedAutoImplicit false

namespace GameRelay.Relay

/-- The relay with more reports behind those it has. -/
def recalling (r : Relay) (old : List Event) : Relay := { r with journal := r.journal ++ old }

/-- An action that goes the same way whatever was reported before. -/
def Unread {α : Type} (a : Action α) : Prop :=
  ∀ (r : Relay) (old : List Event),
    a.run (r.recalling old) =
      match a.run r with
      | .ok x next => .ok x (next.recalling old)
      | .error e next => .error e (next.recalling old)

section Rules

variable {α β : Type}

theorem unread_pure (x : α) : Unread (pure x : Action α) := fun _ _ => rfl

theorem unread_throw (fault : Fault) : Unread (throw fault : Action α) := fun _ _ => rfl

theorem unread_bind {a : Action α} {f : α → Action β} (first : Unread a)
    (next : ∀ x, Unread (f x)) : Unread (a >>= f) := by
  intro r old
  rw [EStateM.run_bind, EStateM.run_bind, first r old]
  cases a.run r with
  | ok x s => exact next x s old
  | error e s => rfl

theorem unread_get_bind {f : Relay → Action β} (same : ∀ r old, f (r.recalling old) = f r)
    (next : ∀ r, Unread (f r)) : Unread (get >>= f) := by
  intro r old
  rw [EStateM.run_bind, EStateM.run_bind]
  change (f (r.recalling old)).run (r.recalling old) = _
  rw [same]
  exact next r r old

theorem unread_of_run {a : Action Unit} {f : Relay → Relay} (run : ∀ r, a.run r = .ok () (f r))
    (same : ∀ r old, f (r.recalling old) = (f r).recalling old) : Unread a := by
  intro r old
  rw [run, run, same]

theorem unread_modify {f : Relay → Relay}
    (same : ∀ r old, f (r.recalling old) = (f r).recalling old) : Unread (modify f) :=
  unread_of_run (fun _ => rfl) same

theorem unread_forM {f : Handle → Action Unit} (hs : List Handle) (body : ∀ h, Unread (f h)) :
    Unread (hs.forM f) := by
  induction hs with
  | nil => exact unread_pure ()
  | cons h rest ih => exact unread_bind (body h) fun _ => ih

end Rules

theorem room?_recalling (r : Relay) (old : List Event) (code : Option String) :
    (r.recalling old).room? code = r.room? code := by
  cases code <;> rfl

theorem accepted_recalling (r : Relay) (h : Handle) (item : Item) (old : List Event) :
    (r.recalling old).accepted h item = (r.accepted h item).recalling old := by
  unfold accepted
  change (if (r.peer h).outbox.isFull then _ else _) = _
  split <;> rfl

private theorem offered_recalling (r : Relay) (h : Handle) (m : Message) (e : Event)
    (old : List Event) : (r.recalling old).offered h m e = (r.offered h m e).recalling old := by
  unfold offered
  change (if (r.peer h).isOpen then _ else _) = _
  split
  · exact accepted_recalling r h _ old
  · rfl

theorem closed_recalling (r : Relay) (h : Handle) (old : List Event) :
    (r.recalling old).closed h = (r.closed h).recalling old := by
  unfold closed
  change (if (r.peer h).isOpen then _ else _) = _
  split
  · exact accepted_recalling (r.setPeer h _) h _ old
  · rfl

private theorem written_recalling (r : Relay) (h : Handle) (socket : Nat → CallOutcome)
    (held : Option Item) (old : List Event) :
    (r.recalling old).written h socket held = (r.written h socket held).recalling old := by
  have peer : (r.recalling old).peer h = r.peer h := rfl
  rw [written, written, peer]
  split
  · split <;> rfl
  · rfl

theorem unread_report (e : Event) : Unread (report e) := unread_modify fun _ _ => rfl

theorem unread_modifyPeer (h : Handle) (f : Connection → Connection) : Unread (modifyPeer h f) :=
  unread_modify fun _ _ => rfl

theorem unread_sendOrReport (h : Handle) (m : Message) (e : Event) :
    Unread (sendOrReport h m e) :=
  unread_of_run (run_sendOrReport · h m e) (offered_recalling · h m e)

theorem unread_reply (h : Handle) (m : Message) : Unread (reply h m) :=
  unread_get_bind (fun _ _ => rfl) fun _ => unread_sendOrReport h m _

theorem unread_sendToHost (room : Room) (m : Message) : Unread (sendToHost room m) :=
  unread_get_bind (fun _ _ => rfl) fun _ => unread_sendOrReport room.host m _

theorem unread_broadcast (room : Room) (m : Message) : Unread (broadcast room m) :=
  unread_forM room.members fun h =>
    unread_get_bind (fun _ _ => rfl) fun _ => unread_sendOrReport h m _

theorem unread_closeMembers (room : Room) : Unread (closeMembers room) :=
  unread_forM room.members fun h =>
    unread_bind (unread_modifyPeer h _) fun _ =>
      unread_of_run (run_close · h) (closed_recalling · h)

theorem unread_liveRoom (code : String) : Unread (liveRoom code) := by
  refine unread_get_bind (fun _ _ => rfl) fun r => ?_
  cases Table.find? r.rooms code with
  | none => exact unread_throw _
  | some room => exact unread_pure room

theorem unread_seatMember (code : String) (h : Handle) : Unread (seatMember code h) := by
  refine unread_bind (unread_liveRoom code) fun room => ?_
  refine unread_get_bind (fun _ _ => rfl) fun r => ?_
  dsimp only
  cases room.add? (r.peer h).role h with
  | none => exact unread_throw _
  | some seated => exact unread_modify fun _ _ => rfl

theorem unread_unseatMember (code : String) (h : Handle) : Unread (unseatMember code h) :=
  unread_bind (unread_liveRoom code) fun _ => unread_modify fun _ _ => rfl

theorem unread_rejectSecondRole (h : Handle) : Unread (rejectSecondRole h) := by
  refine unread_get_bind (fun _ _ => rfl) fun r => ?_
  dsimp only
  split
  · exact unread_pure false
  · exact unread_bind (unread_report _) fun _ =>
      unread_bind (unread_reply h _) fun _ => unread_pure true

theorem unread_generateCode : Unread generateCode := by
  intro r old
  have search : (r.recalling old).codeSearch = r.codeSearch := rfl
  have searched : (r.recalling old).searched = r.searched.recalling old :=
    congrArg (fun journal => { r.searched with journal }) (List.append_assoc _ _ _).symm
  rw [run_generateCode, run_generateCode, search, searched]
  cases r.codeSearch.outcome <;> rfl

theorem unread_createRoom (h : Handle) : Unread (createRoom h) := by
  refine unread_bind (unread_rejectSecondRole h) fun assigned => ?_
  cases assigned with
  | true => exact unread_pure none
  | false =>
    refine unread_bind unread_generateCode fun code => ?_
    refine unread_bind (unread_modify fun _ _ => rfl) fun _ => ?_
    refine unread_bind (unread_modifyPeer h _) fun _ => ?_
    refine unread_bind (unread_reply h _) fun _ => ?_
    refine unread_get_bind (fun _ _ => rfl) fun r => ?_
    exact unread_bind (unread_report _) fun _ => unread_pure _

theorem unread_roomForSeat (h : Handle) (requested : Option String) :
    Unread (roomForSeat h requested) := by
  refine unread_bind (unread_rejectSecondRole h) fun assigned => ?_
  cases assigned with
  | true => exact unread_pure none
  | false =>
    refine unread_get_bind ?_ fun r => ?_
    · intro r old
      simp only [room?_recalling]
      rfl
    cases r.room? requested with
    | some room => exact unread_pure _
    | none =>
      exact unread_bind (unread_report _) fun _ =>
        unread_bind (unread_reply h _) fun _ => unread_pure none

theorem unread_takeSeat (seat : Seat) (h : Handle) (requested : Option String) :
    Unread (takeSeat seat h requested) := by
  refine unread_bind (unread_roomForSeat h requested) fun found => ?_
  cases found with
  | none => exact unread_pure none
  | some room =>
    refine unread_bind (unread_modifyPeer h _) fun _ => ?_
    refine unread_bind (unread_seatMember room.code h) fun _ => ?_
    refine unread_bind (unread_reply h _) fun _ => ?_
    refine unread_get_bind (fun _ _ => rfl) fun r => ?_
    have ending : Unread (do
        report (.seatTaken seat (r.idOf h) room.code)
        return (← get).room? (some room.code)) :=
      unread_bind (unread_report _) fun _ => unread_get_bind (fun _ _ => rfl) fun _ => unread_pure _
    cases seat with
    | player => exact unread_bind (unread_sendToHost room _) fun _ => ending
    | spectator => exact ending

theorem unread_deleteRoom (code : String) : Unread (deleteRoom code) := by
  refine unread_get_bind (fun _ _ => rfl) fun r => ?_
  split
  · exact unread_bind (unread_modify fun _ _ => rfl) fun _ => unread_report _
  · exact unread_pure ()

theorem unread_disconnect (h : Handle) : Unread (disconnect h) := by
  refine unread_get_bind ?_ fun r => ?_
  · intro r old
    simp only [room?_recalling]
    rfl
  dsimp only
  cases r.room? (r.peer h).room with
  | none => exact unread_pure ()
  | some room =>
    by_cases role : (r.peer h).role = .host
    · simp only [role, if_true]
      exact unread_bind (unread_closeMembers room) fun _ => unread_deleteRoom room.code
    · simp only [role, if_false]
      exact unread_bind (unread_unseatMember room.code h) fun _ => unread_report _

theorem unread_relayInput (h : Handle) (payload : Json.Value) : Unread (relayInput h payload) := by
  refine unread_get_bind ?_ fun r => ?_
  · intro r old
    simp only [room?_recalling]
    rfl
  dsimp only
  cases r.room? (r.peer h).room with
  | none => exact unread_report _
  | some room =>
    by_cases held : room.holds r.idOf h
    · simp only [held, if_true]
      cases (r.peer h).role with
      | player => exact unread_sendToHost room _
      | host => exact unread_broadcast room _
      | spectator => exact unread_report _
      | unassigned => exact unread_pure ()
    · simp only [held, Bool.false_eq_true, if_false]
      exact unread_report _

theorem unread_perform (h : Handle) (request : Request) : Unread (perform h request) := by
  cases request with
  | host => exact unread_bind (unread_createRoom h) fun _ => unread_pure ()
  | seat seat code =>
    exact unread_bind (unread_takeSeat seat h (some code)) fun _ => unread_pure ()
  | input move state =>
    refine unread_get_bind (fun _ _ => rfl) fun r => ?_
    split
    · exact unread_relayInput h _
    · exact unread_relayInput h _

theorem unread_handle (h : Handle) (frame : Frame) : Unread (handle h frame) := by
  unfold handle
  cases Request.ofFrame frame with
  | error _ => exact unread_get_bind (fun _ _ => rfl) fun _ => unread_report _
  | ok request => exact unread_perform h request

theorem unread_action (call : Call) : Unread call.action := by
  cases call with
  | arrive h id capacity => exact unread_modify fun _ _ => rfl
  | frame h frame => exact unread_handle h frame
  | host h => exact unread_perform h .host
  | seat seat h requested =>
    exact unread_bind (unread_takeSeat seat h requested) fun _ => unread_pure ()
  | input h payload => exact unread_relayInput h payload
  | disconnect h => exact unread_disconnect h
  | close h => exact unread_of_run (run_close · h) (closed_recalling · h)
  | detach h => exact unread_modifyPeer h fun c => { c with isOpen := false }
  | write h socket held =>
    have run (r : Relay) :
        (Call.write h socket held).action.run r = .ok () (r.written h socket held) := by
      simp only [Call.action, EStateM.run_bind, run_runWriter, EStateM.run_pure]
    exact unread_of_run run (written_recalling · h socket held)
  | refill codes => exact unread_modify fun _ _ => rfl

def quiet (r : Relay) : Relay := { r with journal := [] }

/-- What a call reports, last first. -/
def reports (r : Relay) (call : Call) : List Event := (r.quiet.after call).journal

theorem after_recalling (r : Relay) (call : Call) (old : List Event) :
    (r.recalling old).after call = (r.after call).recalling old := by
  rw [after, after, unread_action call r old]
  cases call.action.run r <;> rfl

/-- A call puts its reports in front of the journal and does nothing else to it. -/
theorem journal_after (r : Relay) (call : Call) :
    (r.after call).journal = r.reports call ++ r.journal :=
  congrArg journal (after_recalling r.quiet call r.journal)

/-- Where only the reports are different, a call does the same. -/
theorem OnlyReports.after_eq {r next : Relay} (only : r.OnlyReports next) (call : Call) :
    next.after call = (r.quiet.after call).recalling next.journal := by
  obtain ⟨peers, rooms, codes⟩ := only
  have quiet : next.quiet = r.quiet := by
    rw [Relay.quiet, Relay.quiet, peers, rooms, codes]
  rw [← quiet]
  exact after_recalling next.quiet call next.journal

end GameRelay.Relay
