import GameRelay.Proofs.Relay.Differences
import GameRelay.Proofs.Relay.Writing

/-!
# Where an input goes

A player's input goes to the host of its room, a host's to every member of its room, and the input
of anybody else goes nowhere. Whoever is open among those that it goes to has one more message in
its outbox afterwards; everything else stays as it was, but for what is reported. So it is in every
state that a relay can get into, also when the code of a connection has been given to a room of
others.
-/

set_option autoImplicit false
set_option relaxedAutoImplicit false

namespace GameRelay.Relay

variable {r : Relay} {h : Handle} {room : Room}

inductive Unheard (r : Relay) (h : Handle) : Prop
  | spectator (role : (r.peer h).role = .spectator)
  | unassigned (role : (r.peer h).role = .unassigned)
  | homeless (gone : r.room? (r.peer h).room = none)
  /-- The code of the connection belongs to a room of others. -/
  | outside (room : Room) (live : r.room? (r.peer h).room = some room)
    (apart : h ∉ room.host :: room.members)

structure Routes (r next : Relay) (h : Handle) (payload : Json.Value) : Prop where
  player : ∀ room, r.room? (r.peer h).room = some room → h ∈ room.players →
    r.Informs next [room.host] (.input (r.idOf h) payload)
  host : ∀ room, r.room? (r.peer h).room = some room → room.host = h →
    r.Informs next room.members (.state payload) ∧ next.peer h = r.peer h
  unheard : r.Unheard h → r.OnlyReports next
  decided : (∃ room, r.room? (r.peer h).room = some room ∧ (h ∈ room.players ∨ room.host = h)) ∨
    r.Unheard h
  kept : r.OnlyOutboxes next

namespace Settled

variable (settled : r.Settled)
include settled

theorem informs_of_player (found : r.room? (r.peer h).room = some room) (player : h ∈ room.players)
    (payload : Json.Value) :
    r.Informs (r.routed h payload) [room.host] (.input (r.idOf h) payload) := by
  have fits := settled.fits (settled.filed.live_of_room? found).2
  have seated : h ∈ room.occupants .player := player
  have inside := List.mem_cons_of_mem room.host ((room.mem_members h).mpr ⟨.player, seated⟩)
  have role : (r.peer h).role = .player := fits.role_of_mem seated
  rw [routed_of_inside found inside, role]
  exact informs_of_follows (follows_answer (peer_offered r room.host · _ _) (rooms_offered r _ _ _)
    (codes_offered r _ _ _) (known_offered r _ _ (fits.present _ List.mem_cons_self)))

theorem informs_of_host (found : r.room? (r.peer h).room = some room) (host : room.host = h)
    (payload : Json.Value) : r.Informs (r.routed h payload) room.members (.state payload) ∧
      (r.routed h payload).peer h = r.peer h := by
  subst host
  have live := (settled.filed.live_of_room? found).2
  have informs : r.Informs (r.routed room.host payload) room.members (.state payload) := by
    rw [routed_of_inside found List.mem_cons_self, (settled.fits live).role_of_host]
    exact informs_of_follows (follows_broadcasted settled _ live)
  exact ⟨informs, informs.others room.host (settled.fits live).host_not_mem⟩

theorem onlyReports_of_unheard (unheard : r.Unheard h) (payload : Json.Value) :
    r.OnlyReports (r.routed h payload) := by
  rw [routed]
  cases found : r.room? (r.peer h).room with
  | none => exact r.onlyReports_noted _
  | some room =>
    by_cases held : room.holds r.idOf h
    · simp only [held, if_true]
      -- whoever a room holds is in it, so the reason is the role
      cases unheard with
      | spectator role =>
        rw [role]
        exact r.onlyReports_noted _
      | unassigned role =>
        rw [role]
        exact ⟨rfl, rfl, rfl⟩
      | homeless gone => cases gone.symm.trans found
      | outside other live apart =>
        cases live.symm.trans found
        obtain ⟨own, live⟩ := settled.filed.live_of_room? found
        exact absurd (settled.mem_of_holds live (known_of_room own) held) apart
    · simp only [held, Bool.false_eq_true, if_false]
      exact r.onlyReports_noted _

theorem decided_routing (h : Handle) :
    (∃ room, r.room? (r.peer h).room = some room ∧ (h ∈ room.players ∨ room.host = h)) ∨
      r.Unheard h := by
  cases found : r.room? (r.peer h).room with
  | none => exact .inr (.homeless found)
  | some room =>
    by_cases inside : h ∈ room.host :: room.members
    · rcases List.mem_cons.mp inside with host | member
      · exact .inl ⟨room, rfl, .inr host.symm⟩
      · obtain ⟨seat, member⟩ := (room.mem_members h).mp member
        cases seat with
        | player => exact .inl ⟨room, rfl, .inl member⟩
        | spectator =>
          have live := (settled.filed.live_of_room? found).2
          exact .inr (.spectator ((settled.fits live).role_of_mem member))
    · exact .inr (.outside room found inside)

theorem routes (h : Handle) (payload : Json.Value) : r.Routes (r.routed h payload) h payload := by
  refine ⟨fun room found player => settled.informs_of_player found player payload,
    fun room found host => settled.informs_of_host found host payload,
    fun unheard => settled.onlyReports_of_unheard unheard payload, settled.decided_routing h, ?_⟩
  rcases settled.decided_routing h with ⟨room, found, player | host⟩ | unheard
  · exact (settled.informs_of_player found player payload).onlyOutboxes
  · exact (settled.informs_of_host found host payload).1.onlyOutboxes
  · exact (settled.onlyReports_of_unheard unheard payload).onlyOutboxes

end Settled

/-- Whatever was done with a relay, an input comes to those that the room of its sender makes it
come to, and to nobody else. -/
theorem routes_dealtAll (codes : CodeSource) (ds : List Dealing)
    (possible : (initial codes).AllPossible ds) (h : Handle) (payload : Json.Value) :
    ∃ next, (relayInput h payload).run ((initial codes).dealtAll ds) = .ok () next ∧
      ((initial codes).dealtAll ds).Routes next h payload :=
  ⟨_, run_relayInput _ h payload,
    ((inOrder_initial codes).dealtAll possible).settled.routes h payload⟩

/-- A code is used again. The outboxes of the second host and of its spectator are full, and its
second player is closed. -/
def crowd : List Dealing :=
  [.call (.arrive 0 "f" 4), .call (.host 0), .call (.disconnect 0), .call (.arrive 1 "h" 1),
    .call (.host 1), .call (.arrive 2 "p" 4), .call (.seat .player 2 (some "a")),
    .call (.arrive 3 "q" 4), .call (.seat .player 3 (some "a")), .call (.close 3),
    .call (.arrive 4 "s" 1), .call (.seat .spectator 4 (some "a"))]

/-- The input of a player pushes out what waited for the host, that of the host comes to the open
members, and the first host, who still carries the code, is not heard. -/
theorem routes_after_crowd :
    let r := (initial (.listed ["a", "a"])).dealtAll crowd
    (initial (.listed ["a", "a"])).AllPossible crowd ∧
      (∃ next, (relayInput 2 .null).run r = .ok () next ∧
        (next.peer 1).outbox.items = [.message (.input "p" .null)] ∧
        (next.peer 1).outbox.dropped = 3 ∧ ∀ k, k ≠ 1 → next.peer k = r.peer k) ∧
      (∃ next, (relayInput 1 .null).run r = .ok () next ∧
        (next.peer 2).outbox.items = [.message (.seated .player "a"), .message (.state .null)] ∧
        (next.peer 4).outbox.items = [.message (.state .null)] ∧ next.peer 3 = r.peer 3 ∧
        next.peer 1 = r.peer 1) ∧
      ∃ next, (relayInput 0 .null).run r = .ok () next ∧ r.OnlyReports next := by
  intro r
  have possible : (initial (.listed ["a", "a"])).AllPossible crowd := by decide +kernel
  have routes (h : Handle) := routes_dealtAll (.listed ["a", "a"]) crowd possible h .null
  have found : r.room? (r.peer 2).room = some ⟨"a", 1, [2, 3], [4]⟩ := by decide +kernel
  refine ⟨possible, ?_, ?_, ?_⟩
  · obtain ⟨next, run, routes⟩ := routes 2
    have informs := routes.player _ found (by decide)
    have gains := (informs.hears 1 (by decide)).gains (by decide +kernel)
    refine ⟨next, run, gains.items.trans (by decide +kernel),
      gains.dropped.trans (by decide +kernel), ?_⟩
    intro k other
    exact informs.others k (by simpa using other)
  · obtain ⟨next, run, routes⟩ := routes 1
    obtain ⟨informs, unchanged⟩ := routes.host ⟨"a", 1, [2, 3], [4]⟩ (by decide +kernel) rfl
    have player := (informs.hears 2 (by decide)).gains (by decide +kernel)
    have spectator := (informs.hears 4 (by decide)).gains (by decide +kernel)
    exact ⟨next, run, player.items.trans (by decide +kernel),
      spectator.items.trans (by decide +kernel),
      (informs.hears 3 (by decide)).shut (by decide +kernel), unchanged⟩
  · obtain ⟨next, run, routes⟩ := routes 0
    exact ⟨next, run, routes.unheard (.outside ⟨"a", 1, [2, 3], [4]⟩ (by decide +kernel)
      (by decide))⟩

end GameRelay.Relay
