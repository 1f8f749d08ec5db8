import GameRelay.Proofs.Relay.Sessions
import GameRelay.Proofs.Relay.Traffic

/-!
# What a connection is told, in order

All that ever comes into the outbox of a connection reads as one conversation. As long as the
connection has no place in a room it hears only that a room was not found. Then it may be greeted
once, and from there on it hears what belongs to its place: a host of its players and their inputs,
a member of the state of the game, both that they cannot ask twice. The close marker can only come
last. A connection that is not open hears nothing, so it is enough to follow open ones; the place
they were greeted in is the role they have.
-/

set_option autoImplicit false
set_option relaxedAutoImplicit false

namespace GameRelay

inductive Place
  | host
  | member (seat : Seat)

namespace Place

def role : Place → Role
  | .host => .host
  | .member seat => seat.role

def greeting (code : String) : Place → Message
  | .host => .roomCreated code
  | .member seat => .seated seat code

/-- What may come to a connection in a place after it was greeted. -/
inductive Hears : Place → Message → Prop
  | again (place : Place) : Hears place (.error Relay.alreadyInRoom)
  | playerJoined (id : String) : Hears .host (.playerJoined id)
  | input (id : String) (payload : Json.Value) : Hears .host (.input id payload)
  | state (seat : Seat) (payload : Json.Value) : Hears (.member seat) (.state payload)

theorem role_ne_unassigned (place : Place) : place.role ≠ .unassigned := by
  cases place with
  | host => exact nofun
  | member seat => exact seat.role_ne_unassigned

theorem eq_host_of_role {place : Place} (role : place.role = .host) : place = .host := by
  cases place with
  | host => rfl
  | member seat => exact absurd role seat.role_ne_host

theorem exists_seat_of_role {place : Place} {seat : Seat} (role : place.role = seat.role) :
    place = .member seat := by
  cases place with
  | host => exact absurd role.symm seat.role_ne_host
  | member other => rw [Seat.role_injective role]

def IsIn (room : Room) (h : Handle) : Place → Prop
  | .host => room.host = h
  | .member seat => h ∈ room.occupants seat

end Place

/-- Every player is announced once, and before its first input. -/
structure Introduced (messages : List Message) : Prop where
  once : ∀ id, messages.count (.playerJoined id) ≤ 1
  first : ∀ before id payload later, messages = before ++ .input id payload :: later →
    .playerJoined id ∈ before

private theorem introduced_nil : Introduced [] where
  once _ := Nat.zero_le 1
  first before _ _ _ same := by cases before <;> cases same

theorem Introduced.concat {messages : List Message} (introduced : Introduced messages) {m : Message}
    (fresh : ∀ id, m = .playerJoined id → m ∉ messages)
    (known : ∀ id payload, m = .input id payload → .playerJoined id ∈ messages) :
    Introduced (messages ++ [m]) where
  once id := by
    rw [List.count_append, List.count_singleton]
    by_cases announces : m = .playerJoined id
    · have none := List.count_eq_zero.mpr (fresh id announces)
      rw [announces] at none ⊢
      simp [none]
    · have once := introduced.once id
      simpa [announces] using once
  first before id payload later same := by
    rcases List.eq_nil_or_concat later with rfl | ⟨rest, last, rfl⟩
    · obtain ⟨rfl, input⟩ := List.append_inj' same rfl
      exact known id payload (List.singleton_inj.mp input)
    · rw [List.concat_eq_append, ← List.cons_append, ← List.append_assoc] at same
      exact introduced.first before id payload rest (List.append_inj' same rfl).1

/-- What a connection may have heard as long as it was open: that a room was not found, any number
of times, and after that, if it has taken a place, the greeting and what belongs to its place. -/
inductive Talk (entered : Place → String → Prop) : Option Place → List Message → Prop
  | waiting (n : Nat) : Talk entered none (List.replicate n (.error Relay.roomNotFound))
  | placed (n : Nat) (place : Place) (code : String) (heard : List Message)
      (enters : entered place code) (fitting : ∀ m ∈ heard, place.Hears m)
      (introduced : Introduced heard) :
    Talk entered (some place)
      (List.replicate n (.error Relay.roomNotFound) ++ place.greeting code :: heard)

/-- Items that are such a talk, with at most a close marker after it. -/
def Conversation (entered : Place → String → Prop) (items : List Item) : Prop :=
  ∃ place talk ending, Talk entered place talk ∧ (ending = [] ∨ ending = [.close]) ∧
    items = talk.map .message ++ ending

namespace Talk

variable {entered later : Place → String → Prop} {talk : List Message}

theorem mono {place : Option Place} (told : Talk entered place talk)
    (grows : ∀ place code, entered place code → later place code) : Talk later place talk := by
  cases told with
  | waiting n => exact .waiting n
  | placed n place code heard enters fitting introduced =>
    exact .placed n place code heard (grows place code enters) fitting introduced

private theorem refuse (told : Talk entered none talk) :
    Talk entered none (talk ++ [.error Relay.roomNotFound]) := by
  cases told with
  | waiting n =>
    rw [← List.replicate_succ']
    exact .waiting (n + 1)

theorem greet (told : Talk entered none talk) {place : Place} {code : String}
    (enters : entered place code) : Talk entered (some place) (talk ++ [place.greeting code]) := by
  cases told with
  | waiting n => exact .placed n place code [] enters nofun introduced_nil

theorem hear {place : Place} (told : Talk entered (some place) talk) {m : Message}
    (fits : place.Hears m) (fresh : ∀ id, m = .playerJoined id → m ∉ talk)
    (known : ∀ id payload, m = .input id payload → .playerJoined id ∈ talk) :
    Talk entered (some place) (talk ++ [m]) := by
  cases told with
  | placed n place code heard enters fitting introduced =>
    rw [List.append_assoc, List.cons_append]
    refine .placed n place code (heard ++ [m]) enters ?_ (introduced.concat ?_ ?_)
    · intro other member
      rcases List.mem_append.mp member with member | member
      · exact fitting other member
      · exact List.mem_singleton.mp member ▸ fits
    · intro id announces member
      exact fresh id announces (List.mem_append_right _ (List.mem_cons_of_mem _ member))
    · intro id payload input
      rcases List.mem_append.mp (known id payload input) with refusal | member
      · cases List.eq_of_mem_replicate refusal
      · rcases List.mem_cons.mp member with greeting | member
        · cases place <;> cases greeting
        · exact member

theorem conversation {place : Option Place} (told : Talk entered place talk) :
    Conversation entered (talk.map .message) :=
  ⟨place, talk, [], told, .inl rfl, (List.append_nil _).symm⟩

private theorem conversation_closed {place : Option Place} (told : Talk entered place talk) :
    Conversation entered (talk.map .message ++ [.close]) :=
  ⟨place, talk, [.close], told, .inr rfl, rfl⟩

end Talk

theorem Conversation.mono {entered later : Place → String → Prop} {items : List Item}
    (conversation : Conversation entered items)
    (grows : ∀ place code, entered place code → later place code) : Conversation later items := by
  obtain ⟨place, talk, ending, told, last, same⟩ := conversation
  exact ⟨place, talk, ending, told.mono grows, last, same⟩

/-- Items that make up the conversation with a connection so far. As long as it is open, its role is
that of its place. -/
structure Spoken (entered : Place → String → Prop) (c : Connection) (items : List Item) : Prop where
  whole : Conversation entered items
  talk : c.isOpen → ∃ place talk, Talk entered place talk ∧ items = talk.map .message ∧
    c.role = place.elim .unassigned Place.role

namespace Spoken

variable {entered later : Place → String → Prop} {c d : Connection} {items : List Item}

theorem mono (spoken : Spoken entered c items)
    (grows : ∀ place code, entered place code → later place code) : Spoken later c items where
  whole := spoken.whole.mono grows
  talk isOpen := by
    obtain ⟨place, talk, told, same, role⟩ := spoken.talk isOpen
    exact ⟨place, talk, told.mono grows, same, role⟩

theorem quiet (spoken : Spoken entered c items) (none : c.gained d = [])
    (opens : d.isOpen → c.isOpen ∧ d.role = c.role) : Spoken entered d (items ++ c.gained d) := by
  rw [none, List.append_nil]
  refine ⟨spoken.whole, ?_⟩
  intro isOpen
  obtain ⟨isOpen, kept⟩ := opens isOpen
  rw [kept]
  exact spoken.talk isOpen

theorem closed (spoken : Spoken entered c items) (same : d.outbox = c.outbox)
    (isOpen : d.isOpen = c.isOpen) : Spoken entered d.closed (items ++ c.gained d.closed) := by
  have shut (next : List Item) (whole : Conversation entered next) :
      Spoken entered d.closed next := by
    refine ⟨whole, ?_⟩
    rw [Connection.isOpen_closed]
    exact nofun
  apply shut
  rw [Connection.gained_closed same, isOpen]
  cases opens : c.isOpen with
  | false => simpa using spoken.whole
  | true =>
    obtain ⟨place, talk, told, rfl, _⟩ := spoken.talk opens
    exact told.conversation_closed

theorem offered (spoken : Spoken entered c items) (same : d.outbox = c.outbox)
    (isOpen : d.isOpen = c.isOpen) (m : Message)
    (goes : ∀ place talk, Talk entered place talk → items = talk.map .message →
      c.role = place.elim .unassigned Place.role → c.isOpen →
      ∃ next, Talk entered next (talk ++ [m]) ∧ d.role = next.elim .unassigned Place.role) :
    Spoken entered (d.offered m) (items ++ c.gained (d.offered m)) := by
  rw [Connection.gained_offered m same, isOpen]
  cases opens : c.isOpen with
  | false =>
    refine ⟨by simpa using spoken.whole, ?_⟩
    rw [Connection.isOpen_offered, isOpen, opens]
    exact nofun
  | true =>
    obtain ⟨place, talk, told, rfl, role⟩ := spoken.talk opens
    obtain ⟨next, told, role⟩ := goes place talk told rfl role opens
    have whole : talk.map Item.message ++ [.message m] = (talk ++ [m]).map .message := by simp
    rw [if_pos rfl, whole]
    refine ⟨told.conversation, fun _ => ⟨next, talk ++ [m], told, rfl, ?_⟩⟩
    rw [← role]
    exact congrArg Prod.fst (Connection.standing_offered d m)

end Spoken

namespace Relay

/-- Everything that some calls put into the outbox of a connection, in order. -/
def intake (r : Relay) (q : Handle) : List Call → List Item
  | [] => []
  | call :: rest => (r.peer q).gained ((r.after call).peer q) ++ intake (r.after call) q rest

private theorem intake_append (r : Relay) (q : Handle) (calls later : List Call) :
    r.intake q (calls ++ later) = r.intake q calls ++ (r.afterAll calls).intake q later := by
  induction calls generalizing r with
  | nil => rfl
  | cons call rest ih =>
    have tail := ih (r.after call)
    simp only [List.cons_append, intake, tail, List.append_assoc]
    rfl

/-- In the course of some calls a connection without a role takes a place in the room with a
code. -/
def Enters (r : Relay) (calls : List Call) (q : Handle) (place : Place) (code : String) : Prop :=
  ∃ before call, before ++ [call] <+: calls ∧
    ((r.afterAll before).peer q).role = .unassigned ∧
    ∃ room, Table.find? (r.afterAll (before ++ [call])).rooms code = some room ∧ place.IsIn room q

private theorem enters_append {r : Relay} {calls : List Call} (later : List Call) {q : Handle}
    {place : Place} {code : String} (enters : r.Enters calls q place code) :
    r.Enters (calls ++ later) q place code := by
  obtain ⟨before, call, early, rest⟩ := enters
  exact ⟨before, call, early.trans (List.prefix_append calls later), rest⟩

private theorem isIn_of_role {r : Relay} (settled : r.Settled) {call : Call}
    (admissible : r.Admissible call) {q : Handle} {place : Place} {code : String}
    (fresh : (r.peer q).role = .unassigned)
    (standing : ((r.after call).peer q).standing = (place.role, some code)) :
    ∃ room, Table.find? (r.after call).rooms code = some room ∧ place.IsIn room q := by
  have later := settled_after settled admissible
  have role : ((r.after call).peer q).role = place.role := congrArg Prod.fst standing
  have own : ((r.after call).peer q).room = some code := congrArg Prod.snd standing
  rcases role_of_shift (shift_after settled admissible) q with same | ⟨_, room, live, taken⟩
  · exact absurd (role.symm.trans (same.trans fresh)) place.role_ne_unassigned
  · have inside : q ∈ room.host :: room.members := by
      rcases taken with ⟨_, rfl⟩ | ⟨seat, _, member⟩
      · exact List.mem_cons_self
      · exact List.mem_cons_of_mem _ ((room.mem_members q).mpr ⟨seat, member⟩)
    have code' := (later.fits live).code_of_mem inside
    rw [own] at code'
    cases code'
    refine ⟨room, live, ?_⟩
    rcases taken with ⟨host, hosts⟩ | ⟨seat, seated, member⟩
    · rw [Place.eq_host_of_role (role.symm.trans host)]
      exact hosts
    · rw [Place.exists_seat_of_role (role.symm.trans seated)]
      exact member

/-- The players that a connection was told of are others with a role, and all players of a room that
it hosts are among them. -/
structure Introduces (r : Relay) (q : Handle) (items : List Item) : Prop where
  known : ∀ id, .message (.playerJoined id) ∈ items →
    ∃ h ∈ r.known, r.idOf h = id ∧ (r.peer h).role ≠ .unassigned
  players : ∀ {code : String} {room : Room}, Table.find? r.rooms code = some room →
    room.host = q → ∀ h ∈ room.players, .message (.playerJoined (r.idOf h)) ∈ items

private theorem spoken_of_turn {r : Relay} (settled : r.Settled) {q : Handle} {asked : Option Call}
    (feasible : r.Feasible asked) {c : Connection} (turn : r.Turn q asked c)
    {entered : Place → String → Prop} {items : List Item} (spoken : Spoken entered (r.peer q) items)
    (introduces : (r.peer q).isOpen → r.Introduces q items)
    (enters : ∀ place code, (r.peer q).role = .unassigned →
      c.standing = (place.role, some code) → entered place code) :
    Spoken entered c (items ++ (r.peer q).gained c) := by
  have heard {m : Message} {talk : List Message} :
      m ∈ talk ↔ Item.message m ∈ talk.map .message := by
    simp
  cases turn with
  | idle => exact spoken.quiet (Connection.gained_self _) fun isOpen => ⟨isOpen, rfl⟩
  | rejectedHost role =>
    refine spoken.offered rfl rfl _ ?_
    intro place talk told same own isOpen
    cases place with
    | none => exact absurd own role
    | some place => exact ⟨some place, told.hear (.again place) nofun nofun, own⟩
  | opened code role free =>
    refine spoken.offered (d := { r.peer q with role := .host, room := some code }) rfl rfl _ ?_
    intro place talk told same own isOpen
    cases place with
    | none =>
      refine ⟨some .host, told.greet (enters .host code role ?_), rfl⟩
      exact Connection.standing_offered _ _
    | some place => exact absurd (own.symm.trans role) place.role_ne_unassigned
  | rejectedSeat seat requested role =>
    refine spoken.offered rfl rfl _ ?_
    intro place talk told same own isOpen
    cases place with
    | none => exact absurd own role
    | some place => exact ⟨some place, told.hear (.again place) nofun nofun, own⟩
  | refused seat requested role unknown =>
    refine spoken.offered rfl rfl _ ?_
    intro place talk told same own isOpen
    cases place with
    | none => exact ⟨none, told.refuse, own⟩
    | some place => exact absurd (own.symm.trans role) place.role_ne_unassigned
  | seated seat room role live =>
    refine spoken.offered (d := { r.peer q with role := seat.role, room := some room.code })
      rfl rfl _ ?_
    intro place talk told same own isOpen
    cases place with
    | none =>
      refine ⟨some (.member seat), told.greet (enters (.member seat) room.code role ?_), rfl⟩
      exact Connection.standing_offered _ _
    | some place => exact absurd (own.symm.trans role) place.role_ne_unassigned
  | announced h room role live host =>
    refine spoken.offered rfl rfl _ ?_
    intro place talk told same own isOpen
    have hosts := (settled.fits live).role_of_host
    rw [host, own] at hosts
    cases place with
    | none => cases hosts
    | some place =>
      obtain rfl := Place.eq_host_of_role hosts
      refine ⟨some .host, told.hear (.playerJoined _) ?_ nofun, own⟩
      rintro id ⟨⟩ member
      -- whoever was announced before has a role, and the newcomer has none
      obtain ⟨k, known, id, assigned⟩ := (introduces isOpen).known _ (same ▸ heard.mp member)
      obtain rfl := settled.eq_of_id known (feasible.known rfl rfl) id
      exact assigned role
  | playerInput h payload room live member host =>
    refine spoken.offered rfl rfl _ ?_
    intro place talk told same own isOpen
    have hosts := (settled.fits live).role_of_host
    rw [host, own] at hosts
    cases place with
    | none => cases hosts
    | some place =>
      obtain rfl := Place.eq_host_of_role hosts
      refine ⟨some .host, told.hear (.input _ _) nofun ?_, own⟩
      rintro id _ ⟨⟩
      exact heard.mpr (same ▸ (introduces isOpen).players live host h member)
  | hostInput h payload room live host member =>
    refine spoken.offered rfl rfl _ ?_
    intro place talk told same own isOpen
    obtain ⟨seat, member⟩ := (room.mem_members q).mp member
    have sits := (settled.fits live).role_of_mem member
    rw [own] at sits
    cases place with
    | none => exact absurd sits.symm seat.role_ne_unassigned
    | some place =>
      obtain rfl := Place.exists_seat_of_role sits
      exact ⟨some (.member seat), told.hear (.state seat payload) nofun nofun, own⟩
  | released h room role own live member => exact spoken.closed rfl rfl
  | closed => exact spoken.closed rfl rfl
  | detached => exact spoken.quiet (r.peer q).outbox.gained_self nofun
  | written socket held =>
    refine spoken.quiet (Connection.gained_written _ socket held) fun isOpen => ⟨?_, ?_⟩
    · exact Connection.isOpen_of_written isOpen
    · exact congrArg Prod.fst (Connection.standing_written _ socket held)

private theorem seated_of_announced {r : Relay} (settled : r.Settled) {call : Call}
    (admissible : r.Admissible call) {q : Handle} {id : String}
    (announced : .message (.playerJoined id) ∈ (r.peer q).gained ((r.after call).peer q)) :
    ∃ h ∈ r.known, r.idOf h = id ∧ ((r.after call).peer h).role = .player := by
  have heard : .playerJoined id ∈ (r.peer q).heard ((r.after call).peer q) := by
    rw [Connection.heard, List.mem_filter, List.mem_filterMap]
    exact ⟨⟨_, announced, rfl⟩, rfl⟩
  rcases origin_of_heard settled admissible q with none | ⟨m, one, origin⟩
  · rw [none] at heard
    cases heard
  · rw [one, List.mem_singleton] at heard
    subst heard
    cases origin with
    | playerJoined h room asks live host outside joins =>
      have known := feasible_asked admissible _ asks h rfl
      have member : h ∈ (room.admitted .player h).occupants .player := by
        rw [Room.occupants_admitted, if_pos rfl]
        exact List.mem_append_right _ (List.mem_singleton_self h)
      have role := ((settled_after settled admissible).fits joins).role_of_mem member
      exact ⟨h, known, rfl, role⟩

theorem Introduces.after {r : Relay} (settled : r.Settled) {call : Call}
    (admissible : r.Admissible call) {q : Handle} {items : List Item}
    (introduces : r.Introduces q items) (isOpen : (r.peer q).isOpen) :
    (r.after call).Introduces q (items ++ (r.peer q).gained ((r.after call).peer q)) where
  known id announced := by
    have assigned {h : Handle} (role : ((r.after call).peer h).role ≠ .unassigned)
        (known : h ∈ r.known) (id' : r.idOf h = id) :
        ∃ h ∈ (r.after call).known, (r.after call).idOf h = id ∧
          ((r.after call).peer h).role ≠ .unassigned := by
      refine ⟨h, mem_known_after settled admissible known, ?_, role⟩
      rw [← id']
      exact id_of_turn (turn_after settled admissible known)
    rcases List.mem_append.mp announced with old | new
    · obtain ⟨h, known, id', role⟩ := introduces.known id old
      refine assigned ?_ known id'
      rcases role_of_shift (shift_after settled admissible) h with same | ⟨fresh, _⟩
      · rwa [same]
      · exact absurd fresh role
    · obtain ⟨h, known, id', role⟩ := seated_of_announced settled admissible new
      refine assigned ?_ known id'
      rw [role]
      exact nofun
  players {code room} live hosts h member := by
    have player : h ∈ room.occupants .player := member
    have feasible := feasible_asked admissible
    have same (known : h ∈ r.known) : (r.after call).idOf h = r.idOf h :=
      id_of_turn (turn_after settled admissible known)
    obtain ⟨before, held, host, old | ⟨asks, fresh⟩⟩ :=
      occupants_of_shift settled (shift_after settled admissible) live player
    · have inside := (before.mem_members h).mpr ⟨.player, old⟩
      rw [same ((settled.fits held).present h (List.mem_cons_of_mem _ inside))]
      exact List.mem_append_left _ (introduces.players held (host.trans hosts) h old)
    · -- the player has just taken its seat, and the host was told at once
      have apart : before.host ≠ h := by
        intro self
        exact settled.not_mem_of_unassigned held fresh (self ▸ List.mem_cons_self)
      have told : (r.after call).peer q = (r.peer q).offered (.playerJoined (r.idOf h)) := by
        rw [after_seat settled.filed asks fresh held, peer_seated r .player apart,
          ← host.trans hosts, if_neg apart, if_pos ⟨rfl, rfl⟩]
      rw [same (feasible _ asks h rfl)]
      refine List.mem_append_right _ ?_
      rw [told, Connection.gained_offered _ rfl, if_pos isOpen]
      exact List.mem_singleton_self _

private theorem isOpen_before {r : Relay} (settled : r.Settled) {call : Call}
    (admissible : r.Admissible call) {q : Handle} (isOpen : ((r.after call).peer q).isOpen) :
    (r.peer q).isOpen := by
  by_cases known : q ∈ r.known
  · exact isOpen_of_turn (turn_after settled admissible known) isOpen
  · rw [peer_of_not_known known]
    rfl

private theorem intake_concat (r : Relay) (q : Handle) (calls : List Call) (call : Call) :
    r.intake q (calls ++ [call]) = r.intake q calls ++
      ((r.afterAll calls).peer q).gained (((r.afterAll calls).after call).peer q) := by
  rw [intake_append]
  exact congrArg (r.intake q calls ++ ·) (List.append_nil _)

/-- An invariant of runs: the conversation so far, and whom an open host was told of. -/
theorem spoken_afterAll (codes : CodeSource) (q : Handle) (calls : List Call)
    (proper : (initial codes).Proper calls) :
    Spoken ((initial codes).Enters calls q) (((initial codes).afterAll calls).peer q)
        ((initial codes).intake q calls) ∧
      ((((initial codes).afterAll calls).peer q).isOpen →
        ((initial codes).afterAll calls).Introduces q ((initial codes).intake q calls)) := by
  induction calls using List.reverseRecOn with
  | nil =>
    have silent : Talk ((initial codes).Enters [] q) none [] := .waiting 0
    refine ⟨⟨silent.conversation, fun _ => ⟨none, [], silent, rfl, rfl⟩⟩, fun _ => ⟨nofun, ?_⟩⟩
    intro code room live
    cases live
  | append_singleton calls call ih =>
    obtain ⟨earlier, admissible, _⟩ := (proper_append _ calls [call]).mp proper
    obtain ⟨spoken, introduces⟩ := ih earlier
    have settled := settled_afterAll (settled_initial codes) earlier
    have next : (initial codes).afterAll (calls ++ [call]) =
        ((initial codes).afterAll calls).after call := afterAll_append _ calls [call]
    have spoken := spoken.mono fun place code => enters_append [call]
    rw [intake_concat, next]
    generalize (initial codes).intake q calls = items at spoken introduces ⊢
    refine ⟨?_, ?_⟩
    · by_cases known : q ∈ ((initial codes).afterAll calls).known
      · have turn := turn_after settled admissible known
        refine spoken_of_turn settled (feasible_asked admissible) turn spoken introduces ?_
        intro place code fresh standing
        refine ⟨calls, call, List.prefix_refl _, fresh, ?_⟩
        rw [next]
        exact isIn_of_role settled admissible fresh standing
      · refine spoken.quiet (gained_of_not_known settled admissible known) fun _ => ?_
        obtain ⟨id, capacity, new⟩ := new_of_not_known settled admissible known
        rw [new, peer_of_not_known known]
        exact ⟨rfl, rfl⟩
    · intro isOpen
      have before := isOpen_before settled admissible isOpen
      exact (introduces before).after settled admissible before

/-- Whatever calls are made in whatever order, all that ever came into the outbox of a connection is
one conversation, and the greeting in it names the room that the connection entered. -/
theorem conversation_intake (codes : CodeSource) (calls : List Call)
    (proper : (initial codes).Proper calls) (q : Handle) :
    Conversation ((initial codes).Enters calls q) ((initial codes).intake q calls) :=
  (spoken_afterAll codes q calls proper).1.whole

/-- A client asks for a room in vain, hosts one itself, hears of a player and its input, asks once
more, and is closed before the next input. -/
def evening : List Call :=
  [.arrive 0 "h" 2, .arrive 1 "p" 4, .seat .player 0 (some "x"), .host 0,
    .seat .player 1 (some "a"), .input 1 .null, .host 0, .close 0, .input 1 .null]

theorem conversation_intake_in_evening :
    (initial (.listed ["a"])).Proper evening ∧
      (initial (.listed ["a"])).intake 0 evening =
        [.message (.error roomNotFound), .message (.roomCreated "a"),
          .message (.playerJoined "p"), .message (.input "p" .null),
          .message (.error alreadyInRoom), .close] ∧
      Conversation ((initial (.listed ["a"])).Enters evening 0)
        ((initial (.listed ["a"])).intake 0 evening) := by
  have proper : (initial (.listed ["a"])).Proper evening := by decide +kernel
  exact ⟨proper, by decide +kernel, conversation_intake _ evening proper 0⟩

end Relay

end GameRelay
