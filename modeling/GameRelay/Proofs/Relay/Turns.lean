import GameRelay.Proofs.Relay.Seating

/-!
# What a call does to one connection

A call does at most one thing to a connection that has come before, and `Turn` lists what it can
be, with the reason. In particular ids stay, and a connection that is not open stays so.
-/

set_option autoImplicit false
set_option relaxedAutoImplicit false

namespace GameRelay

@[simp] def Call.newcomers : Call → List Handle
  | .arrive h _ _ => [h]
  | _ => []

namespace Relay

private theorem admissible_asked {r : Relay} {call plain : Call} (asks : r.asked call = some plain)
    (admissible : r.Admissible call) : r.Admissible plain := by
  cases call with
  | frame h f =>
    rcases ask_cases asks with rfl | ⟨seat, code, rfl⟩ | ⟨payload, rfl⟩ <;> exact admissible
  | _ =>
    cases asks
    exact admissible

/-- The call that is asked for, if any, can be made. -/
def Feasible (r : Relay) (asked : Option Call) : Prop := ∀ call ∈ asked, r.Admissible call

theorem feasible_asked {r : Relay} {call : Call} (admissible : r.Admissible call) :
    r.Feasible (r.asked call) :=
  fun _ asks => admissible_asked asks admissible

theorem Feasible.known {r : Relay} {call : Call} {h : Handle} (feasible : r.Feasible (some call))
    (actor : call.actor = some h) (old : call.newcomers = []) : h ∈ r.known := by
  have admissible := feasible call rfl
  cases call with
  | arrive => cases old
  | _ => exact admissible h actor

theorem admissible_of_known {r : Relay} {call : Call} {h : Handle} (known : h ∈ r.known)
    (actor : call.actor = some h) (old : call.newcomers = []) : r.Admissible call := by
  cases call with
  | arrive => cases old
  | _ =>
    intro k acts
    obtain rfl := Option.some.inj (actor.symm.trans acts)
    exact known

private theorem asked_newcomers (r : Relay) (call : Call) :
    (r.asked call).elim [] Call.newcomers = call.newcomers := by
  cases call with
  | frame h f =>
    cases asks : r.asked (.frame h f) with
    | none => rfl
    | some plain =>
      rcases ask_cases asks with rfl | ⟨seat, code, rfl⟩ | ⟨payload, rfl⟩ <;> rfl
  | _ => rfl

private theorem known_of_effect {r next : Relay} {asked : Option Call} (settled : r.Settled)
    (feasible : r.Feasible asked) (effect : r.Effect asked next) :
    next.known = r.known ++ asked.elim [] Call.newcomers := by
  cases effect with
  | arrived h id capacity =>
    exact Table.keys_put_of_not_mem _ (feasible (.arrive h id capacity) rfl).1
  | malformed h f => simp
  | rejectedHost h role => simpa using known_rejected r (feasible.known rfl rfl)
  | searchedInVain h role vain => simp
  | opened h code role found =>
    simpa using known_opened r.searched code (feasible.known (h := h) rfl rfl)
  | rejectedSeat seat h requested role => simpa using known_rejected r (feasible.known rfl rfl)
  | refused seat h requested role unknown =>
    simpa using known_refused r requested (feasible.known rfl rfl)
  | seated seat h room role live =>
    simpa using known_seated r seat (feasible.known rfl rfl)
      ((settled.fits live).present _ List.mem_cons_self)
  | playerInput h payload room role own live held =>
    simpa using known_offered r _ _ ((settled.fits live).present _ List.mem_cons_self)
  | hostInput h payload room role own live held =>
    simpa using known_broadcasted _ fun k member =>
      (settled.fits live).present k (List.mem_cons_of_mem _ member)
  | ignoredInput h payload next quiet => rcases quiet with rfl | ⟨e, rfl⟩ <;> simp
  | homeless h homeless => simp
  | ended h room role own live =>
    simpa using known_ended fun k member =>
      (settled.fits live).present k (List.mem_cons_of_mem _ member)
  | left h room role own live => simp
  | closed h => simpa using known_closed r (feasible.known rfl rfl)
  | detached h => simpa using known_setPeer r _ (feasible.known rfl rfl)
  | written h socket held => simpa using known_written r socket held (feasible.known rfl rfl)
  | refilled codes => simp [known]

theorem known_after {r : Relay} (settled : r.Settled) {call : Call}
    (admissible : r.Admissible call) : (r.after call).known = r.known ++ call.newcomers := by
  rw [← asked_newcomers r call]
  exact known_of_effect settled (feasible_asked admissible) (effect_after settled.filed call)

theorem mem_known_after {r : Relay} (settled : r.Settled) {call : Call}
    (admissible : r.Admissible call) {k : Handle} (known : k ∈ r.known) :
    k ∈ (r.after call).known := by
  rw [known_after settled admissible]
  exact List.mem_append_left _ known

/-- Everything that a call can do to one connection. -/
inductive Turn (r : Relay) (k : Handle) : Option Call → Connection → Prop
  | idle (asked : Option Call) : Turn r k asked (r.peer k)
  | rejectedHost (role : (r.peer k).role ≠ .unassigned) :
    Turn r k (some (.host k)) ((r.peer k).offered (.error alreadyInRoom))
  | opened (code : String) (role : (r.peer k).role = .unassigned)
      (free : Table.find? r.rooms code = none) :
    Turn r k (some (.host k))
      ({ r.peer k with role := .host, room := some code }.offered (.roomCreated code))
  | rejectedSeat (seat : Seat) (requested : Option String)
      (role : (r.peer k).role ≠ .unassigned) :
    Turn r k (some (.seat seat k requested)) ((r.peer k).offered (.error alreadyInRoom))
  | refused (seat : Seat) (requested : Option String) (role : (r.peer k).role = .unassigned)
      (unknown : r.room? requested = none) :
    Turn r k (some (.seat seat k requested)) ((r.peer k).offered (.error roomNotFound))
  | seated (seat : Seat) (room : Room) (role : (r.peer k).role = .unassigned)
      (live : Table.find? r.rooms room.code = some room) :
    Turn r k (some (.seat seat k (some room.code)))
      ({ r.peer k with role := seat.role, room := some room.code }.offered
        (.seated seat room.code))
  | announced (h : Handle) (room : Room) (role : (r.peer h).role = .unassigned)
      (live : Table.find? r.rooms room.code = some room) (host : room.host = k) :
    Turn r k (some (.seat .player h (some room.code)))
      ((r.peer k).offered (.playerJoined (r.idOf h)))
  | playerInput (h : Handle) (payload : Json.Value) (room : Room)
      (live : Table.find? r.rooms room.code = some room) (member : h ∈ room.players)
      (host : room.host = k) :
    Turn r k (some (.input h payload)) ((r.peer k).offered (.input (r.idOf h) payload))
  | hostInput (h : Handle) (payload : Json.Value) (room : Room)
      (live : Table.find? r.rooms room.code = some room) (host : room.host = h)
      (member : k ∈ room.members) :
    Turn r k (some (.input h payload)) ((r.peer k).offered (.state payload))
  | released (h : Handle) (room : Room) (role : (r.peer h).role = .host)
      (own : (r.peer h).room = some room.code)
      (live : Table.find? r.rooms room.code = some room) (member : k ∈ room.members) :
    Turn r k (some (.disconnect h)) (r.peer k).released
  | closed : Turn r k (some (.close k)) (r.peer k).closed
  | detached : Turn r k (some (.detach k)) { r.peer k with isOpen := false }
  | written (socket : Nat → CallOutcome) (held : Option Item) :
    Turn r k (some (.write k socket held)) ((r.peer k).written socket held)

namespace Settled

variable {r : Relay} (settled : r.Settled)
include settled

theorem mem_of_holds {code : String} {room : Room}
    (live : Table.find? r.rooms code = some room) {h : Handle} (known : h ∈ r.known)
    (held : room.holds r.idOf h) : h ∈ room.host :: room.members := by
  simp only [Room.holds, Bool.or_eq_true, decide_eq_true_eq, List.any_eq_true] at held
  rcases held with rfl | ⟨m, member, same⟩
  · exact List.mem_cons_self
  · have one := settled.eq_of_id
      ((settled.fits live).present m (List.mem_cons_of_mem _ member)) known same
    exact List.mem_cons_of_mem _ (one ▸ member)

private theorem mem_players_of_holds {code : String} {room : Room}
    (live : Table.find? r.rooms code = some room) {h : Handle} (known : h ∈ r.known)
    (held : room.holds r.idOf h) (role : (r.peer h).role = .player) : h ∈ room.players := by
  rcases List.mem_cons.mp (settled.mem_of_holds live known held) with rfl | member
  · have host := (settled.fits live).role_of_host
    rw [role] at host
    cases host
  · obtain ⟨seat, member⟩ := (room.mem_members h).mp member
    have own := (settled.fits live).role_of_mem member
    obtain rfl : seat = .player := Seat.role_injective (own.symm.trans role)
    exact member

private theorem eq_host_of_holds {code : String} {room : Room}
    (live : Table.find? r.rooms code = some room) {h : Handle} (known : h ∈ r.known)
    (held : room.holds r.idOf h) (role : (r.peer h).role = .host) : room.host = h := by
  rcases List.mem_cons.mp (settled.mem_of_holds live known held) with rfl | member
  · rfl
  · obtain ⟨seat, member⟩ := (room.mem_members h).mp member
    have own := (settled.fits live).role_of_mem member
    exact absurd (own.symm.trans role) seat.role_ne_host

end Settled

/-- What a call does to a connection that has come before is one of the listed turns. -/
private theorem turn_of_effect {r next : Relay} {asked : Option Call} (settled : r.Settled)
    (feasible : r.Feasible asked) (effect : r.Effect asked next) {k : Handle}
    (known : k ∈ r.known) : r.Turn k asked (next.peer k) := by
  cases effect with
  | arrived h id capacity =>
    have ne : k ≠ h := by
      rintro rfl
      exact (feasible (.arrive k id capacity) rfl).1 known
    rw [peer_setPeer, if_neg ne]
    exact .idle _
  | malformed h f => exact .idle _
  | rejectedHost h role =>
    rw [peer_rejected]
    split
    · subst k
      exact .rejectedHost role
    · exact .idle _
  | searchedInVain h role vain => exact .idle _
  | opened h code role found =>
    rw [peer_opened]
    split
    · subst k
      exact .opened code role (free_of_codeSearch found)
    · exact .idle _
  | rejectedSeat seat h requested role =>
    rw [peer_rejected]
    split
    · subst k
      exact .rejectedSeat seat requested role
    · exact .idle _
  | refused seat h requested role unknown =>
    rw [peer_refused]
    split
    · subst k
      exact .refused seat requested role unknown
    · exact .idle _
  | seated seat h room role live =>
    have ne : room.host ≠ h := by
      rintro rfl
      exact settled.not_mem_of_unassigned live role List.mem_cons_self
    rw [peer_seated r seat ne]
    split
    · subst k
      exact .seated seat room role live
    · split
      · obtain ⟨rfl, rfl⟩ := ‹_ ∧ _›
        exact .announced h room role live rfl
      · exact .idle _
  | playerInput h payload room role own live held =>
    rw [peer_offered]
    split
    · subst k
      exact .playerInput h payload room live
        (settled.mem_players_of_holds live (feasible.known rfl rfl) held role) rfl
    · exact .idle _
  | hostInput h payload room role own live held =>
    rw [peer_broadcasted r _ (settled.fits live).nodup_members]
    split
    · exact .hostInput h payload room live
        (settled.eq_host_of_holds live (feasible.known rfl rfl) held role) ‹_›
    · exact .idle _
  | ignoredInput h payload next quiet =>
    rcases quiet with rfl | ⟨e, rfl⟩ <;> exact .idle _
  | homeless h homeless => exact .idle _
  | ended h room role own live =>
    rw [peer_ended r (settled.fits live).nodup_members]
    split
    · exact .released h room role own live ‹_›
    · exact .idle _
  | left h room role own live => exact .idle _
  | closed h =>
    rw [peer_closed]
    split
    · subst k
      exact .closed
    · exact .idle _
  | detached h =>
    rw [peer_setPeer]
    split
    · subst k
      exact .detached
    · exact .idle _
  | written h socket held =>
    rw [peer_written]
    split
    · subst k
      exact .written socket held
    · exact .idle _
  | refilled codes => exact .idle _

theorem turn_after {r : Relay} (settled : r.Settled) {call : Call}
    (admissible : r.Admissible call) {k : Handle} (known : k ∈ r.known) :
    r.Turn k (r.asked call) ((r.after call).peer k) :=
  turn_of_effect settled (feasible_asked admissible) (effect_after settled.filed call) known

theorem id_of_turn {r : Relay} {k : Handle} {asked : Option Call} {c : Connection}
    (turn : r.Turn k asked c) : c.id = r.idOf k := by
  cases turn with
  | opened code role free => exact Connection.id_offered _ _
  | seated seat room role live => exact Connection.id_offered _ _
  | _ => simp [idOf]

theorem isOpen_of_turn {r : Relay} {k : Handle} {asked : Option Call} {c : Connection}
    (turn : r.Turn k asked c) (isOpen : c.isOpen) : (r.peer k).isOpen := by
  cases turn with
  | closed => simp at isOpen
  | released h room role own live member => simp at isOpen
  | detached => cases isOpen
  | written socket held => exact Connection.isOpen_of_written isOpen
  | _ => simpa using isOpen

end Relay

end GameRelay
