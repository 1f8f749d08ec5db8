import GameRelay.Proofs.Relay.Conversation
import GameRelay.Proofs.Relay.Departures

/-!
# A role is taken once

A connection gets a role together with its place in a room, and both are for good: no call gives it
another role, the code of another room or a place in one. All that can happen to it later is that
its room ends while it is a member. Then it has no room any more and is closed, and whatever it
still asks for is only reported.
-/

set_option autoImplicit false
set_option relaxedAutoImplicit false

namespace GameRelay.Relay

/-- Everything that a call can do to the role and the room of a connection. -/
inductive Move (r next : Relay) (q : Handle) : Prop
  | stays (standing : (next.peer q).standing = (r.peer q).standing)
  | enters (place : Place) (code : String) (room : Room) (fresh : (r.peer q).role = .unassigned)
      (standing : (next.peer q).standing = (place.role, some code))
      (live : Table.find? next.rooms code = some room) (inside : place.IsIn room q)
  | cut (room : Room) (live : Table.find? r.rooms room.code = some room) (member : q ∈ room.members)
      (gone : Table.find? next.rooms room.code = none)
      (standing : (next.peer q).standing = ((r.peer q).role, none))
      (shut : (next.peer q).isOpen = false)

theorem move_of_shift {r next : Relay} {asked : Option Call} (settled : r.Settled)
    (shift : r.Shift asked next) (q : Handle) : r.Move next q := by
  cases shift with
  | kept _ rooms standing => exact .stays (standing q)
  | left h room role own live rooms standing => exact .stays (standing q)
  | opened h code role free rooms standing =>
    have mine := standing q
    split at mine
    · subst q
      have live : Table.find? next.rooms code = some (.new code h) := by
        rw [rooms]
        exact Table.find?_put_self r.rooms code _
      exact .enters .host code _ role mine live rfl
    · exact .stays mine
  | seated seat h room role before rooms standing =>
    have mine := standing q
    split at mine
    · subst q
      have live : Table.find? next.rooms room.code = some (room.admitted seat h) := by
        rw [rooms]
        exact Table.find?_put_self r.rooms room.code _
      have inside : h ∈ (room.admitted seat h).occupants seat := by
        rw [Room.occupants_admitted, if_pos rfl]
        exact List.mem_append_right _ (List.mem_singleton_self h)
      exact .enters (.member seat) room.code _ role mine live inside
    · exact .stays mine
  | ended h room role own live rooms standing shut =>
    have mine := standing q
    split at mine
    · rename_i member
      have gone : Table.find? next.rooms room.code = none := by
        rw [rooms]
        exact Table.find?_erase_self settled.keys room.code
      exact .cut room live member gone mine (shut q member)
    · exact .stays mine

theorem move_after {r : Relay} (settled : r.Settled) {call : Call} (admissible : r.Admissible call)
    (q : Handle) : r.Move (r.after call) q :=
  move_of_shift settled (shift_after settled admissible) q

/-- A room that is live after a call was live before, unless its host has only now got its role. -/
private theorem live_of_shift {r next : Relay} {asked : Option Call} (settled : r.Settled)
    (shift : r.Shift asked next) {code : String} {room : Room}
    (live : Table.find? next.rooms code = some room)
    (assigned : (r.peer room.host).role ≠ .unassigned) :
    ∃ before, Table.find? r.rooms code = some before ∧ before.host = room.host := by
  cases shift with
  | kept _ rooms standing => exact ⟨room, rooms ▸ live, rfl⟩
  | opened h opening role free rooms standing =>
    rw [rooms, Table.find?_put] at live
    split at live
    · cases live
      exact absurd role assigned
    · exact ⟨room, live, rfl⟩
  | seated seat h held role before rooms standing =>
    rw [rooms, Table.find?_put] at live
    split at live
    · subst code
      cases live
      exact ⟨held, before, (held.host_admitted seat h).symm⟩
    · exact ⟨room, live, rfl⟩
  | left h held role own before rooms standing =>
    rw [rooms, Table.find?_put] at live
    split at live
    · subst code
      cases live
      exact ⟨held, before, rfl⟩
    · exact ⟨room, live, rfl⟩
  | ended h held role own before rooms standing shut =>
    rw [rooms, Table.find?_erase settled.keys] at live
    split at live
    · cases live
    · exact ⟨room, live, rfl⟩

/-- What a connection has at a later time it had before: its role, the code of its room, and its
place in a room with the same host. -/
structure Keeps (r later : Relay) (q : Handle) : Prop where
  role : (later.peer q).role = (r.peer q).role
  room : ∀ code, (later.peer q).room = some code → (r.peer q).room = some code
  place : ∀ code room, Table.find? later.rooms code = some room → ∀ place : Place,
    place.IsIn room q →
      ∃ before, Table.find? r.rooms code = some before ∧ before.host = room.host ∧
        place.IsIn before q

namespace Keeps

variable {r s t : Relay} {q : Handle}

theorem refl (r : Relay) (q : Handle) : r.Keeps r q where
  role := rfl
  room _ own := own
  place _ room live _ inside := ⟨room, live, rfl, inside⟩

theorem trans (keeps : r.Keeps s q) (later : s.Keeps t q) : r.Keeps t q where
  role := later.role.trans keeps.role
  room code own := keeps.room code (later.room code own)
  place code room live place inside := by
    obtain ⟨between, held, host, inside⟩ := later.place code room live place inside
    obtain ⟨before, held, earlier, inside⟩ := keeps.place code between held place inside
    exact ⟨before, held, earlier.trans host, inside⟩

end Keeps

theorem keeps_after {r : Relay} (settled : r.Settled) {call : Call} (admissible : r.Admissible call)
    {q : Handle} (assigned : (r.peer q).role ≠ .unassigned) : r.Keeps (r.after call) q := by
  have shift := shift_after settled admissible
  have place : ∀ code room, Table.find? (r.after call).rooms code = some room → ∀ place : Place,
      place.IsIn room q →
        ∃ before, Table.find? r.rooms code = some before ∧ before.host = room.host ∧
          place.IsIn before q := by
    intro code room live place inside
    cases place with
    | host =>
      have host : room.host = q := inside
      obtain ⟨before, held, same⟩ := live_of_shift settled shift live (host ▸ assigned)
      exact ⟨before, held, same, same.trans host⟩
    | member seat =>
      have seated : q ∈ room.occupants seat := inside
      obtain ⟨before, held, host, member | ⟨_, fresh⟩⟩ :=
        occupants_of_shift settled shift live seated
      · exact ⟨before, held, host, member⟩
      · exact absurd fresh assigned
  cases move_of_shift settled shift q with
  | stays standing =>
    have role := congrArg Prod.fst standing
    have room := congrArg Prod.snd standing
    exact ⟨role, fun code own => room.symm.trans own, place⟩
  | enters _ _ _ fresh => exact absurd fresh assigned
  | cut _ _ _ _ standing _ =>
    have role := congrArg Prod.fst standing
    have none := congrArg Prod.snd standing
    refine ⟨role, ?_, place⟩
    intro code own
    exact nomatch none.symm.trans own

theorem keeps_afterAll {r : Relay} (settled : r.Settled) {calls : List Call}
    (proper : r.Proper calls) {q : Handle} (assigned : (r.peer q).role ≠ .unassigned) :
    r.Keeps (r.afterAll calls) q := by
  induction calls generalizing r with
  | nil => exact .refl r q
  | cons call rest ih =>
    obtain ⟨admissible, proper⟩ := proper
    have first := keeps_after settled admissible assigned
    have later : ((r.after call).peer q).role ≠ .unassigned := by
      rw [first.role]
      exact assigned
    exact first.trans (ih (settled_after settled admissible) proper later)

/-- A connection with a role but without a room is closed. -/
def Silent (r : Relay) (q : Handle) : Prop :=
  (r.peer q).role ≠ .unassigned → (r.peer q).room = none → (r.peer q).isOpen = false

theorem silent_after {r : Relay} (settled : r.Settled) {call : Call}
    (admissible : r.Admissible call) {q : Handle} (silent : r.Silent q) :
    (r.after call).Silent q := by
  intro assigned homeless
  cases move_after settled admissible q with
  | stays standing =>
    have role : ((r.after call).peer q).role = (r.peer q).role := congrArg Prod.fst standing
    have room : ((r.after call).peer q).room = (r.peer q).room := congrArg Prod.snd standing
    rw [role] at assigned
    rw [room] at homeless
    have shut := silent assigned homeless
    have opens := isOpen_of_turn (turn_after settled admissible (known_of_role assigned))
    rw [shut] at opens
    exact Bool.eq_false_iff.mpr fun isOpen => nomatch opens isOpen
  | enters _ _ _ _ standing =>
    have room := congrArg Prod.snd standing
    exact nomatch room.symm.trans homeless
  | cut _ _ _ _ _ shut => exact shut

theorem silent_afterAll {r : Relay} (settled : r.Settled) {calls : List Call}
    (proper : r.Proper calls) {q : Handle} (silent : r.Silent q) : (r.afterAll calls).Silent q := by
  induction calls generalizing r with
  | nil => exact silent
  | cons call rest ih =>
    exact ih (settled_after settled proper.1) proper.2 (silent_after settled proper.1 silent)

theorem onlyReports_rejected {r : Relay} {q : Handle} (shut : (r.peer q).isOpen = false) :
    r.OnlyReports (r.rejected q) := by
  have never : ¬((r.noted
      (.requestRejected (r.peer q).id (r.peer q).role (r.peer q).room)).peer q).isOpen := by
    rw [peer_noted, shut]
    exact Bool.false_ne_true
  rw [rejected, offered, if_neg never]
  exact ⟨rfl, rfl, rfl⟩

theorem onlyReports_of_homeless {r : Relay} (settled : r.Settled) {q : Handle}
    (assigned : (r.peer q).role ≠ .unassigned) (homeless : (r.peer q).room = none)
    (shut : (r.peer q).isOpen = false) {call : Call}
    (own : (∃ f, call = .frame q f) ∨ call = .disconnect q) : r.OnlyReports (r.after call) := by
  have asks : r.asked call = none ∨ r.asked call = some (.host q) ∨
      (∃ seat code, r.asked call = some (.seat seat q code)) ∨
      (∃ payload, r.asked call = some (.input q payload)) ∨
      r.asked call = some (.disconnect q) := by
    rcases own with ⟨f, rfl⟩ | rfl
    · cases asks : r.asked (.frame q f) with
      | none => exact .inl rfl
      | some plain =>
        rcases ask_cases asks with rfl | ⟨seat, code, rfl⟩ | ⟨payload, rfl⟩
        · exact .inr (.inl rfl)
        · exact .inr (.inr (.inl ⟨seat, _, rfl⟩))
        · exact .inr (.inr (.inr (.inl ⟨payload, rfl⟩)))
    · exact .inr (.inr (.inr (.inr rfl)))
  have effect := effect_after settled.filed call
  generalize r.after call = next at effect ⊢
  rcases asks with none | host | ⟨seat, code, seats⟩ | ⟨payload, input⟩ | leaves
  · rw [none] at effect
    cases effect
    exact ⟨rfl, rfl, rfl⟩
  · rw [host] at effect
    cases effect with
    | rejectedHost => exact onlyReports_rejected shut
    | searchedInVain _ fresh _ => exact absurd fresh assigned
    | opened _ _ fresh _ => exact absurd fresh assigned
  · rw [seats] at effect
    cases effect with
    | rejectedSeat => exact onlyReports_rejected shut
    | refused _ _ _ fresh _ => exact absurd fresh assigned
    | seated _ _ _ fresh _ => exact absurd fresh assigned
  · rw [input] at effect
    cases effect with
    | playerInput _ _ _ _ named => exact nomatch homeless.symm.trans named
    | hostInput _ _ _ _ named => exact nomatch homeless.symm.trans named
    | ignoredInput _ _ _ quiet => rcases quiet with rfl | ⟨e, rfl⟩ <;> exact ⟨rfl, rfl, rfl⟩
  · rw [leaves] at effect
    cases effect with
    | homeless => exact ⟨rfl, rfl, rfl⟩
    | ended _ _ _ named => exact nomatch homeless.symm.trans named
    | left _ _ _ named => exact nomatch homeless.symm.trans named

/-- What a connection can go through, seen from one call that leads from `r` to `next` and from a
later time `last`. -/
structure Career (r next last : Relay) (q : Handle) : Prop where
  /-- A role comes together with a room and with the place in it. -/
  taken : (next.peer q).role ≠ (r.peer q).role ∨
      ((r.peer q).room = none ∧ (next.peer q).room ≠ none) →
    (r.peer q).standing = (.unassigned, none) ∧
      ∃ place code room, (next.peer q).standing = (Place.role place, some code) ∧
        Table.find? next.rooms code = some room ∧ place.IsIn room q
  /-- Whoever has a role has no other role, code or place later. -/
  kept : (r.peer q).role ≠ .unassigned → r.Keeps last q
  /-- A room is lost exactly when it ends around its member. -/
  cut : ((r.peer q).room ≠ none ∧ (next.peer q).room = none) ↔
    ∃ room, Table.find? r.rooms room.code = some room ∧ q ∈ room.members ∧
      Table.find? next.rooms room.code = none
  /-- From then on the connection is closed and changes nothing. -/
  inert : (next.peer q).role ≠ .unassigned → (next.peer q).room = none →
    (last.peer q).room = none ∧ (last.peer q).isOpen = false ∧
      last.OnlyReports (last.after (.disconnect q)) ∧
      ∀ f, last.OnlyReports (last.after (.frame q f))

private theorem taken_of_move {r next : Relay} (settled : r.Settled) {q : Handle}
    (move : r.Move next q) (changed : (next.peer q).role ≠ (r.peer q).role ∨
      ((r.peer q).room = none ∧ (next.peer q).room ≠ none)) :
    (r.peer q).standing = (.unassigned, none) ∧
      ∃ place code room, (next.peer q).standing = (Place.role place, some code) ∧
        Table.find? next.rooms code = some room ∧ place.IsIn room q := by
  cases move with
  | stays standing =>
    have role : (next.peer q).role = (r.peer q).role := congrArg Prod.fst standing
    have room : (next.peer q).room = (r.peer q).room := congrArg Prod.snd standing
    rcases changed with other | ⟨none, some⟩
    · exact absurd role other
    · exact absurd (room.trans none) some
  | enters place code room fresh standing live inside =>
    exact ⟨Prod.ext fresh (settled.unassigned q fresh), place, code, room, standing, live, inside⟩
  | cut _ _ _ _ standing _ =>
    have role : (next.peer q).role = (r.peer q).role := congrArg Prod.fst standing
    have room : (next.peer q).room = none := congrArg Prod.snd standing
    rcases changed with other | ⟨_, some⟩
    · exact absurd role other
    · exact absurd room some

private theorem room_none_of_gone {r : Relay} (settled : r.Settled) {call : Call}
    (admissible : r.Admissible call) {room : Room}
    (live : Table.find? r.rooms room.code = some room)
    (gone : Table.find? (r.after call).rooms room.code = none) {q : Handle}
    (member : q ∈ room.members) : ((r.after call).peer q).room = none := by
  have shift := shift_after settled admissible
  rcases room_of_shift settled shift live with ⟨later, found, _⟩ | ⟨_, _, _, _, loose⟩
  · cases gone.symm.trans found
  · exact (loose q member).1

theorem cut_iff {r : Relay} (settled : r.Settled) {call : Call} (admissible : r.Admissible call)
    (q : Handle) :
    ((r.peer q).room ≠ none ∧ ((r.after call).peer q).room = none) ↔
      ∃ room, Table.find? r.rooms room.code = some room ∧ q ∈ room.members ∧
        Table.find? (r.after call).rooms room.code = none := by
  constructor
  · rintro ⟨some, none⟩
    cases move_after settled admissible q with
    | stays standing =>
      have room : ((r.after call).peer q).room = (r.peer q).room := congrArg Prod.snd standing
      exact absurd (room.symm.trans none) some
    | enters _ _ _ _ standing =>
      have room := congrArg Prod.snd standing
      exact nomatch room.symm.trans none
    | cut room live member gone => exact ⟨room, live, member, gone⟩
  · rintro ⟨room, live, member, gone⟩
    have own := (settled.fits live).code_of_mem (List.mem_cons_of_mem _ member)
    refine ⟨?_, room_none_of_gone settled admissible live gone member⟩
    rw [own]
    exact nofun

/-- Whatever calls are made in whatever order: a connection takes a role once, together with its
place in a room, keeps both or is cut loose when the room ends, and changes nothing after that. -/
theorem career_afterAll (codes : CodeSource) (calls : List Call) (call : Call) (later : List Call)
    (proper : (initial codes).Proper (calls ++ call :: later)) (q : Handle) :
    let r := (initial codes).afterAll calls
    Career r (r.after call) ((r.after call).afterAll later) q := by
  intro r
  obtain ⟨earlier, admissible, rest⟩ := (proper_append _ _ _).mp proper
  have settled : r.Settled := settled_afterAll (settled_initial codes) earlier
  have between := settled_after settled admissible
  have silent : (r.after call).Silent q :=
    silent_after settled admissible
      (silent_afterAll (settled_initial codes) earlier fun assigned _ => absurd rfl assigned)
  refine ⟨taken_of_move settled (move_after settled admissible q), ?_, cut_iff settled admissible q,
    ?_⟩
  · intro assigned
    have proper : r.Proper (call :: later) := ⟨admissible, rest⟩
    exact keeps_afterAll settled proper assigned
  · intro assigned homeless
    have keeps := keeps_afterAll between rest assigned
    have role : (((r.after call).afterAll later).peer q).role ≠ .unassigned := by
      rw [keeps.role]
      exact assigned
    have room : (((r.after call).afterAll later).peer q).room = none := by
      refine Option.eq_none_iff_forall_ne_some.mpr ?_
      intro code own
      exact nomatch homeless.symm.trans (keeps.room code own)
    have shut := silent_afterAll between rest silent role room
    have last := settled_afterAll between rest
    refine ⟨room, shut, onlyReports_of_homeless last role room shut (.inr rfl), ?_⟩
    intro f
    exact onlyReports_of_homeless last role room shut (.inl ⟨f, rfl⟩)

/-- The player of a room whose host leaves is cut loose, and stays so when the code is used
again. -/
theorem career_of_player_in_reuse :
    let r := (initial (.listed ["a", "a"])).afterAll (reuse.take 7)
    let next := r.after (.disconnect 0)
    (initial (.listed ["a", "a"])).Proper (reuse.take 7 ++ .disconnect 0 :: reuse.drop 8) ∧
      (r.peer 1).standing = (.player, some "a") ∧ (next.peer 1).standing = (.player, none) ∧
      Career r next (next.afterAll (reuse.drop 8)) 1 := by
  intro r next
  have proper : (initial (.listed ["a", "a"])).Proper
      (reuse.take 7 ++ .disconnect 0 :: reuse.drop 8) := by decide +kernel
  have before : (r.peer 1).standing = (.player, some "a") := by decide +kernel
  have after : (next.peer 1).standing = (.player, none) := by decide +kernel
  exact ⟨proper, before, after,
    career_afterAll (.listed ["a", "a"]) (reuse.take 7) (.disconnect 0) (reuse.drop 8) proper 1⟩

end GameRelay.Relay
