import GameRelay.Proofs.Relay.Sessions

/-!
# What a client does next

What a client does in its session, unless it opens a room, is decided by its own role and id, by the
room that holds it and by the room that it asks for. It has one of six reactions, which change at
most one room, and of all connections only the client's own and those in that room.
-/

set_option autoImplicit false
set_option relaxedAutoImplicit false

namespace GameRelay

inductive Act
  | frame (f : Frame)
  | leave

namespace Act

def step (h : Handle) : Act → Step
  | .frame f => .frame h f
  | .leave => .leave h

/-- The code of the room that an act asks for a seat in. -/
def code? : Act → Option String
  | .frame f =>
    match Request.ofFrame f with
    | .ok (.seat _ code) => some code
    | _ => none
  | .leave => none

def isHosting : Act → Bool
  | .frame f =>
    match Request.ofFrame f with
    | .ok .host => true
    | _ => false
  | .leave => false

end Act

namespace Relay

def holder (r : Relay) (h : Handle) : Option Room :=
  (List.find? (fun entry => entry.2.holds r.idOf h) r.rooms).map Prod.snd

/-- The live room that an act of a connection without a role asks for a seat in. -/
def sought (r : Relay) (h : Handle) (a : Act) : Option Room :=
  if (r.peer h).role = .unassigned then r.room? a.code? else none

/-- The room that an act is addressed to: the one that holds the client, otherwise the one that it
asks for a seat in. -/
def addressed (r : Relay) (h : Handle) (a : Act) : Option Room := (r.holder h).or (r.sought h a)

def Opens (r : Relay) (h : Handle) (a : Act) : Prop :=
  (r.peer h).role = .unassigned ∧ a.isHosting

instance (r : Relay) (h : Handle) (a : Act) : Decidable (r.Opens h a) :=
  inferInstanceAs (Decidable ((r.peer h).role = .unassigned ∧ a.isHosting))

/-- All that an act of a connection depends on. -/
structure Situation where
  role : Role
  id : String
  own : Option Room
  sought : Option Room

def situation (r : Relay) (h : Handle) (a : Act) : Situation :=
  ⟨(r.peer h).role, r.idOf h, r.holder h, r.sought h a⟩

end Relay

/-- What becomes of each connection, and of the room under one code: it is replaced, it ends, or all
rooms stay as they are. -/
structure Reaction where
  peer : Handle → Connection → Connection
  room : Option (String × Option Room)

namespace Reaction

def nothing : Reaction := ⟨fun _ c => c, none⟩

def tell (hearers : List Handle) (m : Message) : Reaction where
  peer k c := if k ∈ hearers then c.offered m else c
  room := none

def welcome (seat : Seat) (h : Handle) (id : String) (room : Room) : Reaction where
  peer k c :=
    if k = h then
      { c with role := seat.role, room := some room.code }.offered (.seated seat room.code)
    else if seat = .player ∧ k = room.host then c.offered (.playerJoined id)
    else c
  room := some (room.code, some (room.admitted seat h))

def shut (h : Handle) : Reaction where
  peer k c := if k = h then { c with isOpen := false } else c
  room := none

def withdraw (h : Handle) (room : Room) : Reaction :=
  { shut h with room := some (room.code, some (room.without h)) }

/-- The peer of a host is gone, and its room ends. -/
def dissolve (h : Handle) (room : Room) : Reaction where
  peer k c :=
    if k = h then { c with isOpen := false }
    else if k ∈ room.members then c.released
    else c
  room := some (room.code, none)

def rooms (reaction : Reaction) (t : Table String Room) : Table String Room :=
  match reaction.room with
  | some (code, new) => Table.change t code new
  | none => t

end Reaction

def Request.reaction (h : Handle) (now : Relay.Situation) : Request → Reaction
  | .host => .tell [h] (.error Relay.alreadyInRoom)
  | .seat place _ =>
    if now.role = .unassigned then
      match now.sought with
      | some room => .welcome place h now.id room
      | none => .tell [h] (.error Relay.roomNotFound)
    else .tell [h] (.error Relay.alreadyInRoom)
  | .input move state =>
    match now.own, now.role with
    | some room, .player => .tell [room.host] (.input now.id (Request.playerPayload move))
    | some room, .host => .tell room.members (.state (Request.hostPayload move state))
    | _, _ => .nothing

/-- What an act of a connection leads to, unless it opens a room. -/
def Act.reaction (h : Handle) (now : Relay.Situation) : Act → Reaction
  | .frame f =>
    match Request.ofFrame f with
    | .ok request => request.reaction h now
    | .error _ => .nothing
  | .leave =>
    match now.own with
    | some room => if now.role = .host then .dissolve h room else .withdraw h room
    | none => .shut h

namespace Relay

/-- One state comes from another by a reaction, but for what was reported. -/
structure Follows (r next : Relay) (reaction : Reaction) : Prop where
  peer : ∀ k, next.peer k = reaction.peer k (r.peer k)
  rooms : next.rooms = reaction.rooms r.rooms
  codes : next.codes = r.codes
  known : next.known = r.known

theorem Settled.holder_eq_some_iff {r : Relay} (settled : r.Settled) {h : Handle}
    (known : h ∈ r.known) {room : Room} :
    r.holder h = some room ↔
      Table.find? r.rooms room.code = some room ∧ h ∈ room.host :: room.members := by
  have inside {entry : String × Room}
      (found : List.find? (fun entry => entry.2.holds r.idOf h) r.rooms = some entry) :
      Table.find? r.rooms entry.2.code = some entry.2 ∧ h ∈ entry.2.host :: entry.2.members := by
    have live := Table.find?_of_mem settled.keys (List.mem_of_find?_eq_some found)
    have held := List.find?_some found
    have filed := settled.filed entry.1 entry.2 live
    exact ⟨filed ▸ live, settled.mem_of_holds live known held⟩
  constructor
  · intro holds
    obtain ⟨entry, found, rfl⟩ := Option.map_eq_some_iff.mp holds
    exact inside found
  · rintro ⟨live, within⟩
    have held := Room.holds_of_mem r.idOf within
    have some_entry : (List.find? (fun entry => entry.2.holds r.idOf h) r.rooms).isSome :=
      List.find?_isSome.mpr ⟨(room.code, room), Table.mem_of_find? live, held⟩
    obtain ⟨entry, found⟩ := Option.isSome_iff_exists.mp some_entry
    obtain ⟨also, among⟩ := inside found
    rw [holder, found, settled.eq_of_mem live also within among]
    rfl

/-- In a session that goes on, a connection is held by the live room that it takes for its own. -/
theorem Matched.holder_eq {r : Relay} {finished : List Handle}
    {joined : Seat → Handle → Handle → Prop} (matched : r.Matched finished joined) {h : Handle}
    (known : h ∈ r.known) (present : h ∉ finished) : r.holder h = r.room? (r.peer h).room := by
  have settled := matched.settled
  have named {room : Room} (live : Table.find? r.rooms room.code = some room)
      (inside : h ∈ room.host :: room.members) : r.room? (r.peer h).room = some room := by
    rw [(settled.fits live).code_of_mem inside]
    exact live
  refine Option.ext ?_
  intro room
  rw [settled.holder_eq_some_iff known]
  constructor
  · rintro ⟨live, inside⟩
    exact named live inside
  · -- by the role of the connection: it has a room only together with a place in it
    intro own
    have mine {other : Room} (live : Table.find? r.rooms other.code = some other)
        (inside : h ∈ other.host :: other.members) :
        Table.find? r.rooms room.code = some room ∧ h ∈ room.host :: room.members := by
      obtain rfl := Option.some.inj ((named live inside).symm.trans own)
      exact ⟨live, inside⟩
    have seated (seat : Seat) (role : (r.peer h).role = seat.role) :
        Table.find? r.rooms room.code = some room ∧ h ∈ room.host :: room.members := by
      obtain ⟨host, -, ⟨other, live, -, member⟩ | ⟨homeless, -, -⟩⟩ :=
        matched.seated h present seat role
      · exact mine live (List.mem_cons_of_mem _ ((other.mem_members h).mpr ⟨seat, member⟩))
      · rw [homeless] at own
        cases own
    cases role : (r.peer h).role with
    | unassigned =>
      rw [settled.unassigned h role] at own
      cases own
    | host =>
      obtain ⟨other, live, rfl⟩ := matched.hosting h present role
      exact mine live List.mem_cons_self
    | player => exact seated .player role
    | spectator => exact seated .spectator role

/-! ### Acts lead to their reactions -/

theorem follows_answer {r next : Relay} {h : Handle} {m : Message}
    (peer : ∀ k, next.peer k = if k = h then (r.peer h).offered m else r.peer k)
    (rooms : next.rooms = r.rooms) (codes : next.codes = r.codes) (known : next.known = r.known) :
    r.Follows next (.tell [h] m) := by
  refine ⟨?_, rooms, codes, known⟩
  intro k
  rw [peer k]
  by_cases same : k = h
  · subst k
    simp [Reaction.tell]
  · simp [Reaction.tell, same]

theorem follows_nothing {r next : Relay} (quiet : next = r ∨ ∃ e, next = r.noted e) :
    r.Follows next .nothing := by
  rcases quiet with rfl | ⟨e, rfl⟩ <;> exact ⟨fun _ => rfl, rfl, rfl, rfl⟩

theorem follows_rejected (r : Relay) {h : Handle} (known : h ∈ r.known) :
    r.Follows (r.rejected h) (.tell [h] (.error alreadyInRoom)) :=
  follows_answer (peer_rejected r h) (rooms_rejected r h) (codes_rejected r h)
    (known_rejected r known)

theorem follows_seated {r : Relay} (settled : r.Settled) (seat : Seat) {h : Handle} {room : Room}
    (known : h ∈ r.known) (role : (r.peer h).role = .unassigned)
    (live : Table.find? r.rooms room.code = some room) :
    r.Follows (r.seated seat h room) (.welcome seat h (r.idOf h) room) := by
  have ne : room.host ≠ h := by
    rintro rfl
    exact settled.not_mem_of_unassigned live role List.mem_cons_self
  have host := (settled.fits live).present _ List.mem_cons_self
  refine ⟨?_, rooms_seated r seat h room, codes_seated r seat h room,
    known_seated r seat known host⟩
  intro k
  rw [peer_seated r seat ne]
  by_cases same : k = h
  · subst k
    rfl
  · simp [Reaction.welcome, same]

theorem follows_broadcasted {r : Relay} (settled : r.Settled) {room : Room} (m : Message)
    (live : Table.find? r.rooms room.code = some room) :
    r.Follows (r.broadcasted room m) (.tell room.members m) := by
  have fits := settled.fits live
  refine ⟨peer_broadcasted r m fits.nodup_members, rooms_broadcasted r room m,
    codes_broadcasted r room m, known_broadcasted m ?_⟩
  intro k member
  exact fits.present k (List.mem_cons_of_mem _ member)

theorem follows_hosting {r : Relay} (filed : r.Filed) {h : Handle} (known : h ∈ r.known) {f : Frame}
    (read : Request.ofFrame f = .ok .host) (opens : ¬r.Opens h (.frame f)) :
    r.Follows (r.after (.frame h f)) (.tell [h] (.error alreadyInRoom)) := by
  have effect := effect_after filed (.frame h f)
  have asks : r.asked (.frame h f) = some (.host h) := by simp [asked, ask, read]
  have hosting : (Act.frame f).isHosting := by simp [Act.isHosting, read]
  rw [asks] at effect
  generalize r.after (.frame h f) = next at effect ⊢
  cases effect with
  | rejectedHost => exact follows_rejected r known
  | searchedInVain _ role _ => exact absurd ⟨role, hosting⟩ opens
  | opened _ _ role _ => exact absurd ⟨role, hosting⟩ opens

theorem follows_seating {r : Relay} (settled : r.Settled) {h : Handle} (known : h ∈ r.known)
    {f : Frame} {seat : Seat} {code : String} (read : Request.ofFrame f = .ok (.seat seat code)) :
    r.Follows (r.after (.frame h f))
      ((Request.seat seat code).reaction h (r.situation h (.frame f))) := by
  have effect := effect_after settled.filed (.frame h f)
  have asks : r.asked (.frame h f) = some (.seat seat h (some code)) := by simp [asked, ask, read]
  have wanted : (Act.frame f).code? = some code := by simp [Act.code?, read]
  rw [asks] at effect
  generalize r.after (.frame h f) = next at effect ⊢
  cases effect with
  | rejectedSeat _ _ _ role =>
    simp only [Request.reaction, situation, role, if_false]
    exact follows_rejected r known
  | refused _ _ _ role unknown =>
    have none : r.sought h (.frame f) = none := by rw [sought, if_pos role, wanted, unknown]
    simp only [Request.reaction, situation, role, none, if_true]
    exact follows_answer (peer_refused r h · _) (rooms_refused r h _) (codes_refused r h _)
      (known_refused r _ known)
  | seated _ _ room role live =>
    have found : r.sought h (.frame f) = some room := by
      rw [sought, if_pos role, wanted]
      exact live
    simp only [Request.reaction, situation, role, found, if_true]
    exact follows_seated settled seat known role live

variable {r : Relay} {finished : List Handle} {joined : Seat → Handle → Handle → Prop}
  (matched : r.Matched finished joined) {h : Handle} (known : h ∈ r.known)
  (present : h ∉ finished)

include matched known present

theorem follows_input (payload : Json.Value) :
    r.Follows (r.routed h payload)
      (match r.holder h, (r.peer h).role with
      | some room, .player => .tell [room.host] (.input (r.idOf h) payload)
      | some room, .host => .tell room.members (.state payload)
      | _, _ => .nothing) := by
  rw [routed, ← matched.holder_eq known present]
  cases own : r.holder h with
  | none => exact follows_nothing (.inr ⟨_, rfl⟩)
  | some room =>
    obtain ⟨live, inside⟩ := (matched.settled.holder_eq_some_iff known).mp own
    have held := Room.holds_of_mem r.idOf inside
    simp only [held, if_true]
    cases (r.peer h).role with
    | player =>
      have host := (matched.settled.fits live).present _ List.mem_cons_self
      exact follows_answer (peer_offered r room.host · _ _) (rooms_offered r _ _ _)
        (codes_offered r _ _ _) (known_offered r _ _ host)
    | host => exact follows_broadcasted matched.settled _ live
    | spectator => exact follows_nothing (.inr ⟨_, rfl⟩)
    | unassigned => exact follows_nothing (.inl rfl)

theorem follows_frame {f : Frame} (opens : ¬r.Opens h (.frame f)) :
    r.Follows (r.after (.frame h f)) ((Act.frame f).reaction h (r.situation h (.frame f))) := by
  have settled := matched.settled
  cases read : Request.ofFrame f with
  | error fault =>
    have asks : r.ask h f = none := by simp [ask, read]
    have leads : (Act.frame f).reaction h (r.situation h (.frame f)) = .nothing := by
      simp [Act.reaction, read]
    rw [leads, after_frame, asks]
    exact follows_nothing (.inr ⟨_, rfl⟩)
  | ok request =>
    have leads : (Act.frame f).reaction h (r.situation h (.frame f)) =
        request.reaction h (r.situation h (.frame f)) := by
      simp [Act.reaction, read]
    rw [leads]
    cases request with
    | host => exact follows_hosting settled.filed known read opens
    | seat place code => exact follows_seating settled known read
    | input move state =>
      have asks : r.asked (.frame h f) = some (.input h
          (if (r.peer h).role = .host then Request.hostPayload move state
            else Request.playerPayload move)) := by
        simp [asked, ask, read]
      have routed := follows_input matched known present
        (if (r.peer h).role = .host then Request.hostPayload move state
          else Request.playerPayload move)
      rw [after_of_asked asks, after_input]
      simp only [Request.reaction, situation]
      -- the payload is the one that goes with the role, and only two roles have theirs relayed
      cases own : r.holder h with
      | none => simpa only [own] using routed
      | some room => cases role : (r.peer h).role <;> simpa [own, role] using routed

omit matched present in
theorem follows_detached : r.Follows (r.after (.detach h)) (.shut h) := by
  refine ⟨?_, rfl, rfl, known_setPeer r _ known⟩
  intro k
  have peer : (r.after (.detach h)).peer k =
      if k = h then { r.peer h with isOpen := false } else r.peer k := peer_setPeer r h k _
  rw [peer]
  by_cases same : k = h
  · subst k
    rfl
  · simp [Reaction.shut, same]

theorem follows_leave :
    r.Follows ((r.after (.detach h)).after (.disconnect h))
      (Act.leave.reaction h (r.situation h .leave)) := by
  have admissible : r.Admissible (.detach h) := admissible_of_known known rfl rfl
  have settled := settled_after matched.settled admissible
  have effect := effect_disconnect settled.filed h
  obtain ⟨peer, rooms, codes, kept⟩ := follows_detached known
  have own : r.room? (r.peer h).room = r.holder h := (matched.holder_eq known present).symm
  have mine : (r.after (.detach h)).peer h = { r.peer h with isOpen := false } :=
    peer_setPeer_self r h _
  have leads : Act.leave.reaction h (r.situation h .leave) =
      match r.holder h with
      | some room => if (r.peer h).role = .host then .dissolve h room else .withdraw h room
      | none => .shut h := rfl
  have same_room :
      (r.after (.detach h)).room? ((r.after (.detach h)).peer h).room = r.holder h := by
    rw [mine]
    exact own
  have same_role : ((r.after (.detach h)).peer h).role = (r.peer h).role := by rw [mine]
  rw [leads, ← same_room, ← same_role]
  generalize r.after (.detach h) = alone at *
  generalize alone.after (.disconnect h) = next at effect ⊢
  cases effect with
  | homeless _ homeless =>
    rw [homeless]
    exact ⟨peer, rooms, codes, kept⟩
  | ended _ room host named live =>
    have fits := settled.fits live
    have found : alone.room? (alone.peer h).room = some room := by
      rw [named]
      exact live
    have outside : h ∉ room.members := by
      intro member
      obtain ⟨seat, member⟩ := (room.mem_members h).mp member
      exact seat.role_ne_host ((fits.role_of_mem member).symm.trans host)
    simp only [found, host, if_true]
    refine ⟨?_, ?_, (codes_ended alone room).trans codes, ?_⟩
    · intro k
      rw [peer_ended alone fits.nodup_members, peer]
      by_cases same : k = h
      · subst k
        simp [Reaction.dissolve, Reaction.shut, outside]
      · simp [Reaction.dissolve, Reaction.shut, same]
    · rw [rooms_ended, rooms]
      rfl
    · rw [known_ended fun k member => fits.present k (List.mem_cons_of_mem _ member), kept]
  | left _ room member named live =>
    have found : alone.room? (alone.peer h).room = some room := by
      rw [named]
      exact live
    simp only [found, member, if_false]
    refine ⟨peer, ?_, codes, kept⟩
    rw [rooms_left, settled.remove_eq_without live (kept ▸ known), rooms]
    rfl

end Relay

/-- A reaction changes no connection but one and those in a room, if there is one, and no other
room than that. -/
structure Reaction.Confined (reaction : Reaction) (h : Handle) (target : Option Room) : Prop where
  peer : ∀ k, k ≠ h → (∀ room ∈ target, k ∉ room.host :: room.members) →
    ∀ c, reaction.peer k c = c
  room : ∀ code new, reaction.room = some (code, new) → ∃ room ∈ target, room.code = code

theorem Reaction.confined_tell {hearers : List Handle} (m : Message) {h : Handle}
    {target : Option Room}
    (inside : ∀ k ∈ hearers, k = h ∨ ∃ room ∈ target, k ∈ room.host :: room.members) :
    (tell hearers m).Confined h target := by
  refine ⟨?_, nofun⟩
  intro k other outside c
  have unheard : k ∉ hearers := by
    intro heard
    rcases inside k heard with same | ⟨room, aimed, member⟩
    · exact other same
    · exact outside room aimed member
  exact if_neg unheard

theorem Reaction.confined_nothing (h : Handle) (target : Option Room) :
    nothing.Confined h target :=
  ⟨fun _ _ _ _ => rfl, nofun⟩

private theorem Reaction.confined_shut (h : Handle) (target : Option Room) :
    (shut h).Confined h target :=
  ⟨fun _ other _ _ => if_neg other, nofun⟩

private theorem Reaction.confined_withdraw (h : Handle) (room : Room) :
    (withdraw h room).Confined h (some room) := by
  refine ⟨fun _ other _ _ => if_neg other, ?_⟩
  rintro code new ⟨⟩
  exact ⟨room, rfl, rfl⟩

private theorem Reaction.confined_dissolve (h : Handle) (room : Room) :
    (dissolve h room).Confined h (some room) := by
  constructor
  · intro k other outside c
    have stranger : k ∉ room.members := fun member =>
      outside room rfl (List.mem_cons_of_mem _ member)
    simp [dissolve, other, stranger]
  · rintro code new ⟨⟩
    exact ⟨room, rfl, rfl⟩

private theorem Reaction.confined_welcome (seat : Seat) (h : Handle) (id : String) (room : Room) :
    (welcome seat h id room).Confined h (some room) := by
  constructor
  · intro k other outside c
    have stranger : k ≠ room.host := by
      rintro rfl
      exact outside room rfl List.mem_cons_self
    simp [welcome, other, stranger]
  · rintro code new ⟨⟩
    exact ⟨room, rfl, rfl⟩

theorem Request.confined_reaction (h : Handle) (now : Relay.Situation) (request : Request)
    (homeless : now.role = .unassigned → now.own = none) :
    (request.reaction h now).Confined h (now.own.or now.sought) := by
  have answer (m : Message) : (Reaction.tell [h] m).Confined h (now.own.or now.sought) := by
    refine Reaction.confined_tell m ?_
    intro k member
    exact .inl (List.mem_singleton.mp member)
  obtain ⟨role, id, own, sought⟩ := now
  cases request with
  | host => exact answer _
  | seat place code =>
    by_cases fresh : role = .unassigned
    · obtain rfl : own = none := homeless fresh
      simp only [reaction, fresh, if_true]
      cases sought with
      | none => exact answer _
      | some room => exact Reaction.confined_welcome place h id room
    · simp only [reaction, fresh, if_false]
      exact answer _
  | input move state =>
    cases own with
    | none => exact Reaction.confined_nothing h _
    | some room =>
      cases role with
      | player =>
        refine Reaction.confined_tell _ ?_
        intro k member
        obtain rfl := List.mem_singleton.mp member
        exact .inr ⟨room, rfl, List.mem_cons_self⟩
      | host =>
        refine Reaction.confined_tell _ ?_
        intro k member
        exact .inr ⟨room, rfl, List.mem_cons_of_mem _ member⟩
      | spectator => exact Reaction.confined_nothing h _
      | unassigned => exact Reaction.confined_nothing h _

theorem Act.confined_reaction (h : Handle) (now : Relay.Situation) (a : Act)
    (homeless : now.role = .unassigned → now.own = none) :
    (a.reaction h now).Confined h (now.own.or now.sought) := by
  cases a with
  | frame f =>
    unfold reaction
    dsimp only
    split
    · exact Request.confined_reaction h now _ homeless
    · exact Reaction.confined_nothing h _
  | leave =>
    unfold reaction
    cases now.own with
    | none => exact Reaction.confined_shut h _
    | some room =>
      dsimp only
      split
      · exact Reaction.confined_dissolve h room
      · exact Reaction.confined_withdraw h room

namespace Relay

theorem Settled.holder_of_unassigned {r : Relay} (settled : r.Settled) {h : Handle}
    (known : h ∈ r.known) (role : (r.peer h).role = .unassigned) : r.holder h = none := by
  refine Option.eq_none_iff_forall_ne_some.mpr ?_
  intro room own
  obtain ⟨live, inside⟩ := (settled.holder_eq_some_iff known).mp own
  exact settled.not_mem_of_unassigned live role inside

theorem Settled.live_of_addressed {r : Relay} (settled : r.Settled) {h : Handle}
    (known : h ∈ r.known) {a : Act} {room : Room} (target : room ∈ r.addressed h a) :
    Table.find? r.rooms room.code = some room := by
  rcases Option.or_eq_some_iff.mp target with own | ⟨-, asked⟩
  · exact ((settled.holder_eq_some_iff known).mp own).1
  · unfold sought at asked
    split_ifs at asked
    exact (settled.filed.live_of_room? asked).2

theorem Settled.confined {r : Relay} (settled : r.Settled) {h : Handle} (known : h ∈ r.known)
    (a : Act) : (a.reaction h (r.situation h a)).Confined h (r.addressed h a) :=
  a.confined_reaction h (r.situation h a) (settled.holder_of_unassigned known)

end Relay

end GameRelay
