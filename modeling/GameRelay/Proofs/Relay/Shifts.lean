import GameRelay.Proofs.Relay.Turns

/-!
# Rooms and roles stay consistent

A call changes rooms, roles and room codes in one of five ways, listed by `Shift`: a room is
opened, a seat in it is taken or left, it is ended, or all stays as it is. Each of them keeps
`Settled`, so it holds after every run of calls that starts from nothing.
-/

set_option autoImplicit false
set_option relaxedAutoImplicit false

namespace GameRelay.Relay

/-- What a call does to rooms and to the role and room of every connection. -/
inductive Shift (r : Relay) : Option Call → Relay → Prop
  | kept {next : Relay} (asked : Option Call) (rooms : next.rooms = r.rooms)
      (standing : ∀ k, (next.peer k).standing = (r.peer k).standing) : Shift r asked next
  | opened {next : Relay} (h : Handle) (code : String) (role : (r.peer h).role = .unassigned)
      (free : Table.find? r.rooms code = none)
      (rooms : next.rooms = Table.put r.rooms code (.new code h))
      (standing : ∀ k, (next.peer k).standing =
        if k = h then (.host, some code) else (r.peer k).standing) : Shift r (some (.host h)) next
  | seated {next : Relay} (seat : Seat) (h : Handle) (room : Room)
      (role : (r.peer h).role = .unassigned)
      (live : Table.find? r.rooms room.code = some room)
      (rooms : next.rooms = Table.put r.rooms room.code (room.admitted seat h))
      (standing : ∀ k, (next.peer k).standing =
        if k = h then (seat.role, some room.code) else (r.peer k).standing) :
    Shift r (some (.seat seat h (some room.code))) next
  | left {next : Relay} (h : Handle) (room : Room) (role : (r.peer h).role ≠ .host)
      (own : (r.peer h).room = some room.code)
      (live : Table.find? r.rooms room.code = some room)
      (rooms : next.rooms = Table.put r.rooms room.code (room.without h))
      (standing : ∀ k, (next.peer k).standing = (r.peer k).standing) :
    Shift r (some (.disconnect h)) next
  | ended {next : Relay} (h : Handle) (room : Room) (role : (r.peer h).role = .host)
      (own : (r.peer h).room = some room.code)
      (live : Table.find? r.rooms room.code = some room)
      (rooms : next.rooms = Table.erase r.rooms room.code)
      (standing : ∀ k, (next.peer k).standing =
        if k ∈ room.members then ((r.peer k).role, none) else (r.peer k).standing)
      (shut : ∀ k ∈ room.members, (next.peer k).isOpen = false) :
    Shift r (some (.disconnect h)) next

private theorem standing_of_changed_one {r next : Relay} {h : Handle} {c : Connection}
    (peer : ∀ k, next.peer k = if k = h then c else r.peer k)
    (same : c.standing = (r.peer h).standing) (k : Handle) :
    (next.peer k).standing = (r.peer k).standing := by
  rw [peer]
  split
  · subst k
    exact same
  · rfl

private theorem shift_of_effect {r next : Relay} {asked : Option Call} (settled : r.Settled)
    (feasible : r.Feasible asked) (effect : r.Effect asked next) : r.Shift asked next := by
  cases effect with
  | arrived h id capacity =>
    refine .kept _ rfl (standing_of_changed_one (peer_setPeer r h · _) ?_)
    rw [peer_of_not_known (feasible (.arrive h id capacity) rfl).1]
    rfl
  | malformed h f => exact .kept _ rfl fun _ => rfl
  | rejectedHost h role =>
    exact .kept _ (rooms_rejected r h) (standing_of_changed_one (peer_rejected r h) (by simp))
  | searchedInVain h role vain => exact .kept _ rfl fun _ => rfl
  | opened h code role found =>
    refine .opened h code role (free_of_codeSearch found) (rooms_opened r.searched h code) ?_
    intro k
    rw [peer_opened]
    split
    · exact Connection.standing_offered _ _
    · rfl
  | rejectedSeat seat h requested role =>
    exact .kept _ (rooms_rejected r h) (standing_of_changed_one (peer_rejected r h) (by simp))
  | refused seat h requested role unknown =>
    exact .kept _ (rooms_refused r h requested)
      (standing_of_changed_one (peer_refused r h · requested) (by simp))
  | seated seat h room role live =>
    have ne : room.host ≠ h := by
      rintro rfl
      exact settled.not_mem_of_unassigned live role List.mem_cons_self
    refine .seated seat h room role live (rooms_seated r seat h room) ?_
    intro k
    rw [peer_seated r seat ne]
    split
    · exact Connection.standing_offered _ _
    · split <;> simp
  | playerInput h payload room role own live held =>
    exact .kept _ (rooms_offered r room.host _ _)
      (standing_of_changed_one (peer_offered r room.host · _ _) (by simp))
  | hostInput h payload room role own live held =>
    refine .kept _ (rooms_broadcasted r room _) ?_
    intro k
    rw [peer_broadcasted r _ (settled.fits live).nodup_members]
    split <;> simp
  | ignoredInput h payload next quiet =>
    rcases quiet with rfl | ⟨e, rfl⟩ <;> exact .kept _ rfl fun _ => rfl
  | homeless h homeless => exact .kept _ rfl fun _ => rfl
  | ended h room role own live =>
    have peer := peer_ended r (settled.fits live).nodup_members
    refine .ended h room role own live (rooms_ended r room) ?_ ?_
    · intro k
      rw [peer]
      split <;> simp
    · intro k member
      rw [peer, if_pos member]
      exact Connection.isOpen_released _
  | left h room role own live =>
    refine .left h room role own live ?_ fun _ => rfl
    rw [rooms_left, settled.remove_eq_without live (feasible.known rfl rfl)]
  | closed h =>
    exact .kept _ (rooms_closed r h) (standing_of_changed_one (peer_closed r h) (by simp))
  | detached h =>
    exact .kept _ rfl (standing_of_changed_one (peer_setPeer r h · _) rfl)
  | written h socket held =>
    exact .kept _ (rooms_written r h socket held)
      (standing_of_changed_one (peer_written r h · socket held) (by simp))
  | refilled codes => exact .kept _ rfl fun _ => rfl

theorem shift_after {r : Relay} (settled : r.Settled) {call : Call}
    (admissible : r.Admissible call) : r.Shift (r.asked call) (r.after call) :=
  shift_of_effect settled (feasible_asked admissible) (effect_after settled.filed call)

private theorem nodup_ids_after {r : Relay} (settled : r.Settled) {call : Call}
    (admissible : r.Admissible call) :
    ((r.after call).known.map (r.after call).idOf).Nodup := by
  have old : r.known.map (r.after call).idOf = r.known.map r.idOf := by
    refine List.map_congr_left ?_
    intro k known
    exact id_of_turn (turn_after settled admissible known)
  rw [known_after settled admissible, List.map_append, old]
  cases call with
  | arrive h id capacity =>
    obtain ⟨_, fresh⟩ := admissible
    have given : [h].map (r.after (.arrive h id capacity)).idOf = [id] :=
      congrArg (fun c : Connection => [c.id]) (peer_setPeer_self r h (.new id capacity))
    rw [Call.newcomers, given]
    refine List.nodup_append.mpr ⟨settled.ids, List.nodup_singleton id, ?_⟩
    rintro a member b single rfl
    exact fresh (List.mem_singleton.mp single ▸ member)
  | _ => simpa using settled.ids

/-- Whoever takes a role was in no room: all rooms that were live go on to fit. -/
private theorem fits_of_newcomer {r next : Relay} {h : Handle} {new : Role × Option String}
    (settled : r.Settled) (grows : ∀ k ∈ r.known, k ∈ next.known)
    (role : (r.peer h).role = .unassigned)
    (standing : ∀ k, (next.peer k).standing = if k = h then new else (r.peer k).standing)
    {code : String} {room : Room} (live : Table.find? r.rooms code = some room) :
    next.Fits code room := by
  refine (settled.fits live).of_standing grows ?_
  intro k member
  rw [standing, if_neg]
  rintro rfl
  exact settled.not_mem_of_unassigned live role member

private theorem fits_of_shift {r next : Relay} {asked : Option Call} (settled : r.Settled)
    (feasible : r.Feasible asked) (grows : ∀ k ∈ r.known, k ∈ next.known)
    (shift : r.Shift asked next) {code : String} {room : Room}
    (live : Table.find? next.rooms code = some room) : next.Fits code room := by
  cases shift with
  | kept _ rooms standing =>
    rw [rooms] at live
    exact (settled.fits live).of_standing grows fun k _ => standing k
  | opened h opening role free rooms standing =>
    rw [rooms, Table.find?_put] at live
    split at live
    · subst code
      cases live
      exact fits_new (grows h (feasible.known rfl rfl)) ((standing h).trans (if_pos rfl))
    · exact fits_of_newcomer settled grows role standing live
  | seated seat h own role before rooms standing =>
    rw [rooms, Table.find?_put] at live
    split at live
    · subst code
      cases live
      refine (fits_of_newcomer settled grows role standing before).admitted ?_
        (grows h (feasible.known rfl rfl)) ((standing h).trans (if_pos rfl))
      intro member
      exact settled.not_mem_of_unassigned before role (List.mem_cons_of_mem _ member)
    · exact fits_of_newcomer settled grows role standing live
  | left h own role mine before rooms standing =>
    rw [rooms, Table.find?_put] at live
    split at live
    · subst code
      cases live
      exact ((settled.fits before).of_standing grows fun k _ => standing k).without h
    · exact (settled.fits live).of_standing grows fun k _ => standing k
  | ended h own role mine before rooms standing shut =>
    rw [rooms, Table.find?_erase settled.keys] at live
    split at live
    · cases live
    · rename_i differ
      -- a room that stays shares nobody with the room that ended
      refine (settled.fits live).of_standing grows ?_
      intro k member
      rw [standing, if_neg]
      intro within
      have same := settled.eq_of_mem live before member (List.mem_cons_of_mem _ within)
      subst same
      exact differ (settled.filed code room live).symm

private theorem nodup_keys_of_shift {r next : Relay} {asked : Option Call} (settled : r.Settled)
    (shift : r.Shift asked next) : (Table.keys next.rooms).Nodup := by
  cases shift with
  | kept _ rooms standing => exact rooms ▸ settled.keys
  | opened h code role free rooms standing => exact rooms ▸ Table.nodup_keys_put settled.keys _ _
  | seated seat h room role live rooms standing =>
    exact rooms ▸ Table.nodup_keys_put settled.keys _ _
  | left h room role own live rooms standing =>
    exact rooms ▸ Table.nodup_keys_put settled.keys _ _
  | ended h room role own live rooms standing shut =>
    exact rooms ▸ Table.nodup_keys_erase settled.keys _

private theorem unassigned_of_shift {r next : Relay} {asked : Option Call} (settled : r.Settled)
    (shift : r.Shift asked next) (k : Handle) :
    (next.peer k).role = .unassigned → (next.peer k).room = none := by
  have old : (r.peer k).standing.1 = .unassigned → (r.peer k).standing.2 = none :=
    settled.unassigned k
  change (next.peer k).standing.1 = .unassigned → (next.peer k).standing.2 = none
  cases shift with
  | kept _ rooms standing => rwa [standing]
  | opened h code role free rooms standing =>
    rw [standing]
    split
    · exact nofun
    · exact old
  | seated seat h room role live rooms standing =>
    rw [standing]
    split
    · exact fun role => absurd role seat.role_ne_unassigned
    · exact old
  | left h room role own live rooms standing => rwa [standing]
  | ended h room role own live rooms standing shut =>
    rw [standing]
    split
    · exact fun _ => rfl
    · exact old

theorem settled_after {r : Relay} (settled : r.Settled) {call : Call}
    (admissible : r.Admissible call) : (r.after call).Settled := by
  have shift := shift_after settled admissible
  exact {
    keys := nodup_keys_of_shift settled shift
    fits := fits_of_shift settled (feasible_asked admissible)
      (fun _ => mem_known_after settled admissible) shift
    unassigned := unassigned_of_shift settled shift
    ids := nodup_ids_after settled admissible }

theorem settled_afterAll {r : Relay} (settled : r.Settled) {calls : List Call}
    (proper : r.Proper calls) : (r.afterAll calls).Settled := by
  induction calls generalizing r with
  | nil => exact settled
  | cons call rest ih => exact ih (settled_after settled proper.1) proper.2

theorem known_afterAll {r : Relay} (settled : r.Settled) {calls : List Call}
    (proper : r.Proper calls) :
    (r.afterAll calls).known = r.known ++ calls.flatMap Call.newcomers := by
  induction calls generalizing r with
  | nil => exact (List.append_nil r.known).symm
  | cons call rest ih =>
    have later := ih (settled_after settled proper.1) proper.2
    rw [known_after settled proper.1, List.append_assoc] at later
    exact later

theorem mem_known_afterAll {r : Relay} (settled : r.Settled) {calls : List Call}
    (proper : r.Proper calls) {h : Handle} (known : h ∈ r.known) :
    h ∈ (r.afterAll calls).known := by
  rw [known_afterAll settled proper]
  exact List.mem_append_left _ known

/-- Everyone whom the live rooms hold, room by room. -/
def housed (r : Relay) : List Handle := r.rooms.flatMap fun entry => entry.2.host :: entry.2.members

theorem Settled.mem_housed {r : Relay} (settled : r.Settled) {h : Handle} :
    h ∈ r.housed ↔
      ∃ code room, Table.find? r.rooms code = some room ∧ h ∈ room.host :: room.members := by
  rw [housed, List.mem_flatMap]
  constructor
  · rintro ⟨⟨code, room⟩, member, inside⟩
    exact ⟨code, room, Table.find?_of_mem settled.keys member, inside⟩
  · rintro ⟨code, room, live, inside⟩
    exact ⟨(code, room), Table.mem_of_find? live, inside⟩

private theorem Settled.nodup_housed {r : Relay} (settled : r.Settled) : r.housed.Nodup := by
  refine List.nodup_flatMap.mpr ⟨?_, ?_⟩
  · intro entry member
    have fits := settled.fits (Table.find?_of_mem settled.keys member)
    exact List.nodup_cons.mpr ⟨fits.host_not_mem, fits.nodup_members⟩
  · have keys : r.rooms.Pairwise fun one two => one.1 ≠ two.1 := List.pairwise_map.mp settled.keys
    refine keys.imp_of_mem ?_
    intro one two first second differ h member within
    have live := Table.find?_of_mem settled.keys first
    have also := Table.find?_of_mem settled.keys second
    have same := settled.eq_of_mem live also member within
    apply differ
    rw [← settled.filed _ _ live, ← settled.filed _ _ also, same]

theorem mem_housed_after {r : Relay} (settled : r.Settled) {call : Call}
    (admissible : r.Admissible call) {h : Handle} (within : h ∈ (r.after call).housed) :
    h ∈ r.housed ∨ r.asked call = some (.host h) ∨
      ∃ seat requested, r.asked call = some (.seat seat h requested) := by
  have shift := shift_after settled admissible
  obtain ⟨code, room, live, inside⟩ := (settled_after settled admissible).mem_housed.mp within
  generalize r.asked call = asked at shift ⊢
  have before {other : String} {held : Room} (live : Table.find? r.rooms other = some held)
      (inside : h ∈ held.host :: held.members) : h ∈ r.housed :=
    settled.mem_housed.mpr ⟨other, held, live, inside⟩
  cases shift with
  | kept _ rooms standing =>
    rw [rooms] at live
    exact .inl (before live inside)
  | opened actor opening role free rooms standing =>
    rw [rooms, Table.find?_put] at live
    split at live
    · cases live
      obtain rfl : h = actor := by simpa [Room.new, Room.members] using inside
      exact .inr (.inl rfl)
    · exact .inl (before live inside)
  | seated seat actor own role held rooms standing =>
    rw [rooms, Table.find?_put] at live
    split at live
    · cases live
      rw [Room.host_admitted, List.mem_cons, Room.mem_members_admitted] at inside
      rcases inside with rfl | member | rfl
      · exact .inl (before held List.mem_cons_self)
      · exact .inl (before held (List.mem_cons_of_mem _ member))
      · exact .inr (.inr ⟨seat, _, rfl⟩)
    · exact .inl (before live inside)
  | left actor own role mine held rooms standing =>
    rw [rooms, Table.find?_put] at live
    split at live
    · cases live
      rcases List.mem_cons.mp inside with rfl | member
      · exact .inl (before held List.mem_cons_self)
      · have member := ((own.mem_members_without actor h).mp member).1
        exact .inl (before held (List.mem_cons_of_mem _ member))
    · exact .inl (before live inside)
  | ended actor own role mine held rooms standing shut =>
    rw [rooms, Table.find?_erase settled.keys] at live
    split at live
    · cases live
    · exact .inl (before live inside)

/-- Whoever has a seat in a live room had it before in a room with the same host, or has just asked
for it. -/
theorem occupants_of_shift {r next : Relay} {asked : Option Call} (settled : r.Settled)
    (shift : r.Shift asked next) {code : String} {room : Room}
    (live : Table.find? next.rooms code = some room) {seat : Seat} {h : Handle}
    (member : h ∈ room.occupants seat) :
    ∃ before, Table.find? r.rooms code = some before ∧ before.host = room.host ∧
      (h ∈ before.occupants seat ∨
        asked = some (.seat seat h (some code)) ∧ (r.peer h).role = .unassigned) := by
  cases shift with
  | kept _ rooms standing => exact ⟨room, rooms ▸ live, rfl, .inl member⟩
  | opened actor opening role free rooms standing =>
    rw [rooms, Table.find?_put] at live
    split at live
    · cases live
      rw [Room.occupants_new] at member
      cases member
    · exact ⟨room, live, rfl, .inl member⟩
  | seated place actor held role before rooms standing =>
    rw [rooms, Table.find?_put] at live
    split at live
    · subst code
      cases live
      refine ⟨held, before, (held.host_admitted place actor).symm, ?_⟩
      rw [Room.occupants_admitted] at member
      split at member
      · subst seat
        rcases List.mem_append.mp member with old | new
        · exact .inl old
        · obtain rfl := List.mem_singleton.mp new
          exact .inr ⟨rfl, role⟩
      · exact .inl member
    · exact ⟨room, live, rfl, .inl member⟩
  | left actor held role own before rooms standing =>
    rw [rooms, Table.find?_put] at live
    split at live
    · subst code
      cases live
      rw [Room.occupants_without] at member
      exact ⟨held, before, rfl, .inl (List.mem_of_mem_filter member)⟩
    · exact ⟨room, live, rfl, .inl member⟩
  | ended actor held role own before rooms standing shut =>
    rw [rooms, Table.find?_erase settled.keys] at live
    split at live
    · cases live
    · exact ⟨room, live, rfl, .inl member⟩

theorem not_mem_housed_after_disconnect {r : Relay} (settled : r.Settled) {h : Handle}
    (known : h ∈ r.known) : h ∉ (r.after (.disconnect h)).housed := by
  have admissible : r.Admissible (.disconnect h) := admissible_of_known known rfl rfl
  have effect := effect_disconnect settled.filed h
  have later := settled_after settled admissible
  intro within
  obtain ⟨code, room, live, inside⟩ := later.mem_housed.mp within
  have own := (later.fits live).code_of_mem inside
  generalize r.after (.disconnect h) = next at effect later live own
  cases effect with
  | homeless _ homeless =>
    rw [own] at homeless
    cases live.symm.trans homeless
  | ended _ ending role mine held =>
    -- whichever room ended, it is the one whose code the connection carried
    rw [peer_ended r (settled.fits held).nodup_members] at own
    split at own
    · rw [Connection.room_released] at own
      cases own
    · cases mine.symm.trans own
      rw [rooms_ended, Table.find?_erase_self settled.keys] at live
      cases live
  | left _ leaving role mine held =>
    cases mine.symm.trans own
    have left : room = leaving.remove r.idOf h := by
      rw [rooms_left, Table.find?_put_self] at live
      exact (Option.some.inj live).symm
    subst left
    rcases List.mem_cons.mp inside with same | member
    · have host := (later.fits live).role_of_host
      exact role (same ▸ host)
    · exact leaving.not_mem_members_remove r.idOf h member

/-- The rooms that a relay lists agree with the roles and the room codes of its connections. -/
structure Consistent (r : Relay) : Prop where
  filed : ∀ entry ∈ r.rooms, entry.2.code = entry.1
  host : ∀ entry ∈ r.rooms,
    (r.peer entry.2.host).role = .host ∧ (r.peer entry.2.host).room = some entry.1
  players : ∀ entry ∈ r.rooms, ∀ h ∈ entry.2.players,
    (r.peer h).role = .player ∧ (r.peer h).room = some entry.1
  spectators : ∀ entry ∈ r.rooms, ∀ h ∈ entry.2.spectators,
    (r.peer h).role = .spectator ∧ (r.peer h).room = some entry.1
  apart : r.housed.Nodup
  unassigned : ∀ h, (r.peer h).role = .unassigned → (r.peer h).room = none ∧ h ∉ r.housed

private theorem Settled.consistent {r : Relay} (settled : r.Settled) : r.Consistent := by
  have fits : ∀ entry ∈ r.rooms, r.Fits entry.1 entry.2 := fun entry member =>
    settled.fits (Table.find?_of_mem settled.keys member)
  refine ⟨?_, ?_, ?_, ?_, settled.nodup_housed, ?_⟩
  · intro entry member
    exact (fits entry member).filed
  · intro entry member
    exact Prod.ext_iff.mp (fits entry member).host
  · intro entry member h player
    exact Prod.ext_iff.mp ((fits entry member).seated .player h player)
  · intro entry member h spectator
    exact Prod.ext_iff.mp ((fits entry member).seated .spectator h spectator)
  · intro h role
    refine ⟨settled.unassigned h role, ?_⟩
    intro within
    obtain ⟨entry, member, inside⟩ := List.mem_flatMap.mp within
    exact settled.not_mem_of_unassigned (Table.find?_of_mem settled.keys member) role inside

/-- Whatever calls are made in whatever order, and whatever codes the rooms get, rooms and roles
agree afterwards. -/
theorem consistent_afterAll (codes : CodeSource) (calls : List Call)
    (proper : (initial codes).Proper calls) : ((initial codes).afterAll calls).Consistent :=
  (settled_afterAll (settled_initial codes) proper).consistent

/-- A code is used again, and its first host and the player of its first room still make calls. -/
def reuse : List Call :=
  [.arrive 0 "h" 4, .arrive 1 "p" 4, .arrive 2 "k" 4, .arrive 3 "s" 4, .host 0,
    .seat .player 1 (some "a"), .input 1 .null, .disconnect 0, .host 2, .seat .player 3 (some "a"),
    .seat .player 0 (some "a"), .input 0 .null, .input 1 .null, .disconnect 1, .input 3 .null,
    .close 3, .frame 0 (.text "\x7b\x7d")]

theorem consistent_after_reuse :
    (initial (.listed ["a", "a"])).Proper reuse ∧
      ((initial (.listed ["a", "a"])).afterAll reuse).Consistent :=
  ⟨by decide +kernel, consistent_afterAll _ _ (by decide +kernel)⟩

end GameRelay.Relay
