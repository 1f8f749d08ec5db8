import GameRelay.Proofs.Relay.Shifts

/-!
# Ending a session again

Once its session has ended a connection is in no room, and the calls of others do not bring it into
one. Ending its session again then leaves everything as it is, with one exception: a host keeps its
role and the code of its room, so when the code has been given to a room of somebody else, that
room is ended in its place.
-/

set_option autoImplicit false
set_option relaxedAutoImplicit false

namespace GameRelay

private theorem Room.remove_eq_self {room : Room} {ids : Handle → String} {h : Handle}
    (apart : ∀ m ∈ room.members, ids m ≠ ids h) : room.remove ids h = room := by
  have players : room.players.filter (fun m => ids m ≠ ids h) = room.players := by
    refine List.filter_eq_self.mpr ?_
    intro m member
    simpa using apart m (List.mem_append_left _ member)
  have spectators : room.spectators.filter (fun m => ids m ≠ ids h) = room.spectators := by
    refine List.filter_eq_self.mpr ?_
    intro m member
    simpa using apart m (List.mem_append_right _ member)
  rw [Room.remove, players, spectators]

namespace Relay

/-- Nothing is different but what was reported. -/
def OnlyReports (r next : Relay) : Prop :=
  next.peers = r.peers ∧ next.rooms = r.rooms ∧ next.codes = r.codes

/-- The room that a connection takes for its own as host is live. -/
def Commands (r : Relay) (h : Handle) : Prop :=
  (r.peer h).role = .host ∧ (r.room? (r.peer h).room).isSome

instance (r : Relay) (h : Handle) : Decidable (r.Commands h) :=
  inferInstanceAs (Decidable ((r.peer h).role = .host ∧ (r.room? (r.peer h).room).isSome))

theorem not_mem_housed_afterAll {r : Relay} (settled : r.Settled) {calls : List Call}
    (proper : r.Proper calls) {h : Handle} (outside : h ∉ r.housed)
    (others : ∀ call ∈ calls, call.actor ≠ some h) : h ∉ (r.afterAll calls).housed := by
  induction calls generalizing r with
  | nil => exact outside
  | cons call rest ih =>
    obtain ⟨admissible, proper⟩ := proper
    have other := others call List.mem_cons_self
    refine ih (settled_after settled admissible) proper ?_
      fun later member => others later (List.mem_cons_of_mem _ member)
    intro within
    rcases mem_housed_after settled admissible within with before | asks | ⟨_, _, asks⟩
    · exact outside before
    · exact other (actor_asked asks).symm
    · exact other (actor_asked asks).symm

/-- For a connection in no room, the end of its session changes something exactly when it commands a
room that is not its own. -/
theorem onlyReports_after_disconnect_iff {r : Relay} (settled : r.Settled) {h : Handle}
    (known : h ∈ r.known) (outside : h ∉ r.housed) :
    r.OnlyReports (r.after (.disconnect h)) ↔ ¬r.Commands h := by
  have effect := effect_disconnect settled.filed h
  generalize r.after (.disconnect h) = next at effect ⊢
  cases effect with
  | homeless _ homeless =>
    have idle : ¬r.Commands h := by
      rintro ⟨_, live⟩
      rw [homeless] at live
      cases live
    exact iff_of_true ⟨rfl, rfl, rfl⟩ idle
  | ended _ room role own live =>
    refine iff_of_false ?_ (not_not_intro ⟨role, ?_⟩)
    · rintro ⟨_, rooms, _⟩
      rw [rooms_ended] at rooms
      have erased := Table.find?_erase_self settled.keys room.code
      rw [rooms, live] at erased
      cases erased
    · rw [own]
      exact Option.isSome_of_eq_some live
  | left _ room role own live =>
    -- the room is put back as it was: nobody in it has the id
    have same : room.remove r.idOf h = room := by
      refine Room.remove_eq_self ?_
      intro m member equal
      have inside := List.mem_cons_of_mem room.host member
      obtain rfl := settled.eq_of_id ((settled.fits live).present m inside) known equal
      exact outside (settled.mem_housed.mpr ⟨room.code, room, live, inside⟩)
    refine iff_of_true ⟨rfl, ?_, rfl⟩ fun commands => role commands.1
    rw [rooms_left, same, Table.put_of_find? live]

theorem onlyReports_at_once {r : Relay} (settled : r.Settled) {h : Handle} (known : h ∈ r.known) :
    (r.after (.disconnect h)).OnlyReports ((r.after (.disconnect h)).after (.disconnect h)) := by
  have admissible : r.Admissible (.disconnect h) := admissible_of_known known rfl rfl
  have effect := effect_disconnect settled.filed h
  refine (onlyReports_after_disconnect_iff (settled_after settled admissible)
    (mem_known_after settled admissible known)
    (not_mem_housed_after_disconnect settled known)).mpr ?_
  rintro ⟨role, live⟩
  generalize r.after (.disconnect h) = next at effect role live
  cases effect with
  | homeless _ homeless =>
    rw [homeless] at live
    cases live
  | ended _ room _ own held =>
    rw [peer_ended r (settled.fits held).nodup_members] at live
    split at live
    · rw [Connection.room_released] at live
      cases live
    · rw [own] at live
      have erased := Table.find?_erase_self settled.keys room.code
      rw [room?, rooms_ended, erased] at live
      cases live
  | left _ room member own held => exact member role

/-- When the session of a connection has ended once, and others have made any calls since, ending it
again leaves rooms and connections as they are exactly when the connection commands no room. -/
theorem onlyReports_again_iff (codes : CodeSource) (calls later : List Call) (c : Handle)
    (proper : (initial codes).Proper (calls ++ .disconnect c :: later))
    (others : ∀ call ∈ later, call.actor ≠ some c) :
    let r := (initial codes).afterAll (calls ++ .disconnect c :: later)
    r.OnlyReports (r.after (.disconnect c)) ↔ ¬r.Commands c := by
  obtain ⟨earlier, admissible, rest⟩ := (proper_append _ _ _).mp proper
  have settled := settled_afterAll (settled_initial codes) earlier
  have known := admissible c rfl
  have ended := settled_after settled admissible
  rw [afterAll_append]
  refine onlyReports_after_disconnect_iff (settled_afterAll ended rest) ?_ ?_
  · exact mem_known_afterAll ended rest (mem_known_after settled admissible known)
  · exact not_mem_housed_afterAll ended rest (not_mem_housed_after_disconnect settled known) others

/-- A player that is out of its room may be reported gone once more. -/
theorem onlyReports_again_of_player :
    (initial (.listed ["a"])).Proper
        ([.arrive 0 "h" 4, .arrive 1 "p" 4, .host 0, .seat .player 1 (some "a")] ++
          .disconnect 1 :: [.input 0 .null]) ∧
      let r := (initial (.listed ["a"])).afterAll
        ([.arrive 0 "h" 4, .arrive 1 "p" 4, .host 0, .seat .player 1 (some "a")] ++
          .disconnect 1 :: [.input 0 .null])
      r.OnlyReports (r.after (.disconnect 1)) :=
  ⟨by decide +kernel,
    (onlyReports_again_iff _ _ [.input 0 .null] 1 (by decide +kernel) (by decide)).mpr
      (by decide +kernel)⟩

/-- A host whose code has been used again ends the room of the second host. -/
theorem not_onlyReports_again :
    ¬∀ (codes : CodeSource) (calls later : List Call) (c : Handle),
      (initial codes).Proper (calls ++ .disconnect c :: later) →
      (∀ call ∈ later, call.actor ≠ some c) →
      let r := (initial codes).afterAll (calls ++ .disconnect c :: later)
      r.OnlyReports (r.after (.disconnect c)) := by
  intro always
  have same := always (.listed ["a", "a"])
    [.arrive 0 "h" 4, .arrive 1 "k" 4, .arrive 2 "p" 4, .host 0]
    [.host 1, .seat .player 2 (some "a")] 0 (by decide +kernel) (by decide)
  exact absurd same.2.1 (by decide +kernel)

end Relay

end GameRelay
