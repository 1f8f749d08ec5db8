import GameRelay.Proofs.Relay.Shifts
import Mathlib.Data.List.Induction

/-!
# Sessions and rooms match

Behind the endpoint a client is let in, sends frames, and leaves once: its connection is noted as
gone and its session is ended, whatever made it leave. Then rooms and sessions match at all times.
A finished session is in no room, a host's session has its room, and a member's session has its
seat or was cut loose when its host's session ended.
-/

set_option autoImplicit false
set_option relaxedAutoImplicit false

namespace GameRelay

@[simp] def Call.leavers : Call → List Handle
  | .disconnect h => [h]
  | _ => []

namespace Relay

theorem role_of_shift {r next : Relay} {asked : Option Call} (shift : r.Shift asked next)
    (h : Handle) :
    (next.peer h).role = (r.peer h).role ∨
      (r.peer h).role = .unassigned ∧ ∃ room, Table.find? next.rooms room.code = some room ∧
        ((next.peer h).role = .host ∧ room.host = h ∨
          ∃ seat : Seat, (next.peer h).role = seat.role ∧ h ∈ room.occupants seat) := by
  cases shift with
  | kept _ rooms standing => exact .inl (congrArg Prod.fst (standing h))
  | opened actor code role free rooms standing =>
    by_cases own : h = actor
    · have mine := (standing h).trans (if_pos own)
      refine .inr ⟨own ▸ role, .new code actor, ?_, .inl ⟨congrArg Prod.fst mine, own.symm⟩⟩
      rw [rooms]
      exact Table.find?_put_self r.rooms code _
    · exact .inl (congrArg Prod.fst ((standing h).trans (if_neg own)))
  | seated seat actor room role live rooms standing =>
    by_cases own : h = actor
    · have mine := (standing h).trans (if_pos own)
      refine .inr ⟨own ▸ role, room.admitted seat actor, ?_,
        .inr ⟨seat, congrArg Prod.fst mine, ?_⟩⟩
      · rw [rooms, Room.code_admitted]
        exact Table.find?_put_self r.rooms room.code _
      · rw [Room.occupants_admitted, if_pos rfl, own]
        exact List.mem_append_right _ (List.mem_singleton_self actor)
    · exact .inl (congrArg Prod.fst ((standing h).trans (if_neg own)))
  | left actor room role own live rooms standing => exact .inl (congrArg Prod.fst (standing h))
  | ended actor room role own live rooms standing shut =>
    refine .inl ?_
    have mine := congrArg Prod.fst (standing h)
    split at mine <;> exact mine

private theorem room_none_of_shift {r next : Relay} {asked : Option Call}
    (shift : r.Shift asked next)
    {h : Handle} (role : (r.peer h).role ≠ .unassigned) (cut : (r.peer h).room = none) :
    (next.peer h).room = none := by
  cases shift with
  | kept _ rooms standing => exact (congrArg Prod.snd (standing h)).trans cut
  | opened actor code fresh free rooms standing =>
    have other : h ≠ actor := by
      rintro rfl
      exact role fresh
    exact (congrArg Prod.snd ((standing h).trans (if_neg other))).trans cut
  | seated seat actor room fresh live rooms standing =>
    have other : h ≠ actor := by
      rintro rfl
      exact role fresh
    exact (congrArg Prod.snd ((standing h).trans (if_neg other))).trans cut
  | left actor room member own live rooms standing =>
    exact (congrArg Prod.snd (standing h)).trans cut
  | ended actor room host own live rooms standing shut =>
    have mine := congrArg Prod.snd (standing h)
    split at mine
    · exact mine
    · exact mine.trans cut

/-- A room is still live, under its code and its host and with everyone in it but those who
leave. -/
def GoesOn (next : Relay) (asked : Option Call) (room : Room) : Prop :=
  ∃ later, Table.find? next.rooms room.code = some later ∧ later.code = room.code ∧
    later.host = room.host ∧
    ∀ seat, ∀ k ∈ room.occupants seat, k ∈ later.occupants seat ∨ asked = some (.disconnect k)

theorem goesOn_of_find? {next : Relay} {room : Room} (asked : Option Call)
    (live : Table.find? next.rooms room.code = some room) : next.GoesOn asked room :=
  ⟨room, live, rfl, rfl, fun _ _ member => .inl member⟩

/-- A live room goes on, unless a connection that says it hosts a room under its code ends its
session. -/
theorem room_of_shift {r next : Relay} {asked : Option Call} (settled : r.Settled)
    (shift : r.Shift asked next) {room : Room}
    (live : Table.find? r.rooms room.code = some room) :
    next.GoesOn asked room ∨
      ∃ h, asked = some (.disconnect h) ∧ (r.peer h).role = .host ∧
        (r.peer h).room = some room.code ∧
        ∀ k ∈ room.members, (next.peer k).room = none ∧ (next.peer k).isOpen = false := by
  cases shift with
  | kept _ rooms standing => exact .inl (goesOn_of_find? _ (rooms ▸ live))
  | opened actor code role free rooms standing =>
    refine .inl (goesOn_of_find? _ ?_)
    rw [rooms, Table.find?_put_of_ne]
    · exact live
    · rintro rfl
      cases free.symm.trans live
  | seated seat actor target role held rooms standing =>
    by_cases same : room.code = target.code
    · rw [same] at live
      cases held.symm.trans live
      refine .inl ⟨room.admitted seat actor, ?_, room.code_admitted seat actor,
        room.host_admitted seat actor, ?_⟩
      · rw [rooms]
        exact Table.find?_put_self r.rooms room.code _
      · intro place k member
        rw [Room.occupants_admitted]
        split
        · exact .inl (List.mem_append_left _ member)
        · exact .inl member
    · refine .inl (goesOn_of_find? _ ?_)
      rw [rooms, Table.find?_put_of_ne _ _ same]
      exact live
  | left actor target role own held rooms standing =>
    by_cases same : room.code = target.code
    · rw [same] at live
      cases held.symm.trans live
      refine .inl ⟨room.without actor, ?_, rfl, rfl, ?_⟩
      · rw [rooms]
        exact Table.find?_put_self r.rooms room.code _
      · intro place k member
        by_cases leaver : k = actor
        · exact .inr (leaver ▸ rfl)
        · rw [Room.occupants_without]
          exact .inl (List.mem_filter.mpr ⟨member, by simpa using leaver⟩)
    · refine .inl (goesOn_of_find? _ ?_)
      rw [rooms, Table.find?_put_of_ne _ _ same]
      exact live
  | ended actor target role own held rooms standing shut =>
    by_cases same : room.code = target.code
    · rw [same] at live
      cases held.symm.trans live
      refine .inr ⟨actor, rfl, role, own, ?_⟩
      intro k member
      exact ⟨congrArg Prod.snd ((standing k).trans (if_pos member)), shut k member⟩
    · refine .inl (goesOn_of_find? _ ?_)
      rw [rooms, Table.find?_erase settled.keys, if_neg same]
      exact live

/-- Sessions and rooms match, where some sessions are finished and members have joined hosts. -/
structure Matched (r : Relay) (finished : List Handle) (joined : Seat → Handle → Handle → Prop) :
    Prop where
  settled : r.Settled
  past : ∀ h ∈ finished, h ∈ r.known
  gone : ∀ h ∈ finished, h ∉ r.housed
  hosting : ∀ h, h ∉ finished → (r.peer h).role = .host →
    ∃ room, Table.find? r.rooms room.code = some room ∧ room.host = h
  seated : ∀ h, h ∉ finished → ∀ seat : Seat, (r.peer h).role = seat.role →
    ∃ host, joined seat h host ∧
      ((∃ room, Table.find? r.rooms room.code = some room ∧ room.host = host ∧
          h ∈ room.occupants seat) ∨
        (r.peer h).room = none ∧ (r.peer h).isOpen = false ∧ host ∈ finished)

theorem matched_initial (codes : CodeSource) (joined : Seat → Handle → Handle → Prop) :
    (initial codes).Matched [] joined where
  settled := settled_initial codes
  past := nofun
  gone := nofun
  hosting _ _ role := by cases role
  seated _ _ seat role := absurd role.symm seat.role_ne_unassigned

namespace Matched

variable {r : Relay} {finished : List Handle} {joined later : Seat → Handle → Handle → Prop}
  {call : Call} (matched : r.Matched finished joined) (admissible : r.Admissible call)
  (active : ∀ h ∈ call.actor, h ∈ finished → ∃ socket held, call = .write h socket held)

include matched admissible active

omit active in
private theorem past_after : ∀ h ∈ call.leavers ++ finished, h ∈ (r.after call).known := by
  intro h member
  apply mem_known_after matched.settled admissible
  rcases List.mem_append.mp member with leaver | past
  · cases call with
    | disconnect k => exact List.mem_singleton.mp leaver ▸ admissible k rfl
    | _ => cases leaver
  · exact matched.past h past

private theorem gone_after : ∀ h ∈ call.leavers ++ finished, h ∉ (r.after call).housed := by
  intro h member within
  rcases List.mem_append.mp member with leaver | past
  · cases call with
    | disconnect k =>
      obtain rfl := List.mem_singleton.mp leaver
      exact not_mem_housed_after_disconnect matched.settled (admissible h rfl) within
    | _ => cases leaver
  · have acts {plain : Call} (asks : r.asked call = some plain) (actor : plain.actor = some h) :
        ∃ socket held, call = .write h socket held :=
      active h ((actor_asked asks).symm.trans actor) past
    rcases mem_housed_after matched.settled admissible within with before | asks | ⟨_, _, asks⟩
    · exact matched.gone h past before
    -- a finished session only writes on, and writing asks for no role
    · obtain ⟨socket, held, rfl⟩ := acts asks rfl
      cases asks
    · obtain ⟨socket, held, rfl⟩ := acts asks rfl
      cases asks

private theorem eq_host_of_leaving {h : Handle} {room : Room}
    (asks : r.asked call = some (.disconnect h)) (role : (r.peer h).role = .host)
    (own : (r.peer h).room = some room.code) (live : Table.find? r.rooms room.code = some room) :
    room.host = h := by
  obtain rfl := eq_of_asked asks rfl
  have present : h ∉ finished := by
    intro past
    obtain ⟨_, _, same⟩ := active h rfl past
    cases same
  -- the leaver still has the room it opened, and no other is live under the same code
  obtain ⟨hosted, found, host⟩ := matched.hosting h present role
  have mine := (matched.settled.fits found).code_of_mem List.mem_cons_self
  rw [host, own] at mine
  rw [← Option.some.inj mine] at found
  cases live.symm.trans found
  exact host

/-- A live room goes on until the session of its host ends. -/
theorem goesOn_after {room : Room} (live : Table.find? r.rooms room.code = some room)
    (stays : call ≠ .disconnect room.host) : (r.after call).GoesOn (r.asked call) room := by
  rcases room_of_shift matched.settled (shift_after matched.settled admissible) live with
    goes | ⟨h, asks, role, own, _⟩
  · exact goes
  · have leaver := matched.eq_host_of_leaving admissible active asks role own live
    exact absurd (leaver ▸ eq_of_asked asks rfl) stays

private theorem hosting_after {h : Handle} (present : h ∉ call.leavers ++ finished)
    (role : ((r.after call).peer h).role = .host) :
    ∃ room, Table.find? (r.after call).rooms room.code = some room ∧ room.host = h := by
  have shift := shift_after matched.settled admissible
  rcases role_of_shift shift h with same | ⟨_, room, live, ⟨_, host⟩ | ⟨seat, seated, _⟩⟩
  · have stays : h ∉ finished := fun past => present (List.mem_append_right _ past)
    obtain ⟨room, live, host⟩ := matched.hosting h stays (same.symm.trans role)
    rcases room_of_shift matched.settled shift live with
      ⟨later, found, code, kept, _⟩ | ⟨k, asks, ends, own, _⟩
    · exact ⟨later, code ▸ found, kept.trans host⟩
    · have leaver := matched.eq_host_of_leaving admissible active asks ends own live
      obtain rfl := eq_of_asked asks rfl
      refine absurd (List.mem_append_left finished ?_) present
      exact List.mem_singleton.mpr (host.symm.trans leaver)
  · exact ⟨room, live, host⟩
  · exact absurd (seated.symm.trans role) seat.role_ne_host

private theorem seated_after
    (grows : ∀ seat h host, joined seat h host → later seat h host)
    (joins : ∀ seat h room, (r.peer h).role = .unassigned →
      Table.find? (r.after call).rooms room.code = some room → h ∈ room.occupants seat →
      later seat h room.host)
    {h : Handle} (present : h ∉ call.leavers ++ finished) {seat : Seat}
    (role : ((r.after call).peer h).role = seat.role) :
    ∃ host, later seat h host ∧
      ((∃ room, Table.find? (r.after call).rooms room.code = some room ∧ room.host = host ∧
          h ∈ room.occupants seat) ∨
        ((r.after call).peer h).room = none ∧ ((r.after call).peer h).isOpen = false ∧
          host ∈ call.leavers ++ finished) := by
  have shift := shift_after matched.settled admissible
  rcases role_of_shift shift h with
    same | ⟨fresh, room, live, ⟨host, _⟩ | ⟨place, seated, member⟩⟩
  -- the role is old: so is the seat, unless its host leaves now or has left before
  · have stays : h ∉ finished := fun past => present (List.mem_append_right _ past)
    have before := same.symm.trans role
    obtain ⟨host, own, state⟩ := matched.seated h stays seat before
    refine ⟨host, grows seat h host own, ?_⟩
    rcases state with ⟨room, live, hosted, member⟩ | ⟨homeless, shut, past⟩
    · rcases room_of_shift matched.settled shift live with
        ⟨next, found, same, kept, keeps⟩ | ⟨k, asks, ends, code, loose⟩
      · rcases keeps seat h member with member | asks
        · exact .inl ⟨next, same ▸ found, kept.trans hosted, member⟩
        · obtain rfl := eq_of_asked asks rfl
          exact absurd (List.mem_append_left finished (List.mem_singleton_self h)) present
      · have leaver := matched.eq_host_of_leaving admissible active asks ends code live
        obtain rfl := eq_of_asked asks rfl
        obtain ⟨homeless, shut⟩ := loose h ((room.mem_members h).mpr ⟨seat, member⟩)
        refine .inr ⟨homeless, shut, List.mem_append_left finished ?_⟩
        exact List.mem_singleton.mpr (hosted.symm.trans leaver)
    · have assigned : (r.peer h).role ≠ .unassigned := by
        rw [before]
        exact seat.role_ne_unassigned
      refine .inr ⟨room_none_of_shift shift assigned homeless, ?_, List.mem_append_right _ past⟩
      have opens := isOpen_of_turn
        (turn_after matched.settled admissible (known_of_role assigned))
      rw [shut] at opens
      exact Bool.eq_false_iff.mpr fun isOpen => nomatch opens isOpen
  · exact absurd (role.symm.trans host) seat.role_ne_host
  -- the role is new: it came with the seat
  · obtain rfl := Seat.role_injective (seated.symm.trans role)
    exact ⟨room.host, joins place h room fresh live member, .inl ⟨room, live, rfl, member⟩⟩

/-- A call of a session that is not finished keeps the match. -/
theorem after (grows : ∀ seat h host, joined seat h host → later seat h host)
    (joins : ∀ seat h room, (r.peer h).role = .unassigned →
      Table.find? (r.after call).rooms room.code = some room → h ∈ room.occupants seat →
      later seat h room.host) :
    (r.after call).Matched (call.leavers ++ finished) later where
  settled := settled_after matched.settled admissible
  past := matched.past_after admissible
  gone := matched.gone_after admissible active
  hosting _ present role := matched.hosting_after admissible active present role
  seated _ present _ role := matched.seated_after admissible active grows joins present role

end Matched

theorem Matched.after_detach {r : Relay} {finished : List Handle}
    {joined : Seat → Handle → Handle → Prop} (matched : r.Matched finished joined) {h : Handle}
    (known : h ∈ r.known) (present : h ∉ finished) :
    (r.after (.detach h)).Matched finished joined := by
  refine matched.after (admissible_of_known known rfl rfl) ?_ (fun _ _ _ own => own) ?_
  · rintro k ⟨⟩ past
    exact absurd past present
  · intro seat k room fresh live member
    have inside := List.mem_cons_of_mem room.host ((room.mem_members k).mpr ⟨seat, member⟩)
    exact absurd inside (matched.settled.not_mem_of_unassigned live fresh)

/-- As many rooms are live as sessions of hosts go on. -/
theorem Matched.length_rooms {r : Relay} {finished : List Handle}
    {joined : Seat → Handle → Handle → Prop} (matched : r.Matched finished joined) :
    r.rooms.length =
      (r.known.filter fun h => h ∉ finished ∧ (r.peer h).role = .host).length := by
  have settled := matched.settled
  have distinct : (r.rooms.map fun entry => entry.2.host).Nodup := by
    refine List.Nodup.map_on ?_ (List.Nodup.of_map _ settled.keys)
    rintro ⟨code, room⟩ first ⟨other, second⟩ also same
    have live := Table.find?_of_mem settled.keys first
    have found := Table.find?_of_mem settled.keys also
    have host : room.host = second.host := same
    have one := settled.eq_of_mem live found List.mem_cons_self (host ▸ List.mem_cons_self)
    rw [← settled.filed code room live, ← settled.filed other second found, one]
  have hosts : ∀ h, h ∈ r.rooms.map (fun entry => entry.2.host) ↔
      h ∈ r.known.filter fun h => h ∉ finished ∧ (r.peer h).role = .host := by
    intro h
    rw [List.mem_map, List.mem_filter, decide_eq_true_eq]
    constructor
    · rintro ⟨⟨code, room⟩, member, rfl⟩
      have live := Table.find?_of_mem settled.keys member
      refine ⟨(settled.fits live).present _ List.mem_cons_self, ?_,
        (settled.fits live).role_of_host⟩
      intro past
      exact matched.gone _ past (settled.mem_housed.mpr ⟨code, room, live, List.mem_cons_self⟩)
    · rintro ⟨_, present, role⟩
      obtain ⟨room, live, host⟩ := matched.hosting h present role
      exact ⟨(room.code, room), Table.mem_of_find? live, host⟩
  have perm := (List.perm_ext_iff_of_nodup distinct (settled.nodup_known.filter _)).mpr hosts
  rw [← List.length_map (fun entry : String × Room => entry.2.host), perm.length_eq]

end Relay

/-! ### Behind the endpoint -/

/-- What befalls a relay whose clients all come through the endpoint. -/
inductive Step
  | enter (h : Handle) (id : String) (capacity : Int)
  | frame (h : Handle) (frame : Frame)
  /-- The end of a session, whether the client went away or a frame could not be handled. -/
  | leave (h : Handle)
  | write (h : Handle) (socket : Nat → CallOutcome) (held : Option Item)
  | refill (codes : CodeSource)

namespace Step

/-- The calls that a step consists of, with nothing in between. -/
def calls : Step → List Call
  | .enter h id capacity => [.arrive h id capacity]
  | .frame h f => [.frame h f]
  | .leave h => [.detach h, .disconnect h]
  | .write h socket held => [.write h socket held]
  | .refill codes => [.refill codes]

def leavers : Step → List Handle
  | .leave h => [h]
  | _ => []

end Step

/-- A relay and the handles whose sessions are finished, last first. -/
structure Sessions where
  relay : Relay
  finished : List Handle

namespace Sessions

def initial (codes : CodeSource) : Sessions := ⟨.initial codes, []⟩

def after (s : Sessions) (step : Step) : Sessions :=
  ⟨s.relay.afterAll step.calls, step.leavers ++ s.finished⟩

def afterAll (s : Sessions) (steps : List Step) : Sessions := steps.foldl after s

/-- Sessions begin with a handle and an id of their own, and end once. -/
def Allowed (s : Sessions) : Step → Prop
  | .enter h id _ => h ∉ s.relay.known ∧ id ∉ s.relay.known.map s.relay.idOf
  | .frame h _ | .leave h => h ∈ s.relay.known ∧ h ∉ s.finished
  | .write h _ _ => h ∈ s.relay.known
  | .refill _ => True

def Disciplined (s : Sessions) : List Step → Prop
  | [] => True
  | step :: rest => s.Allowed step ∧ Disciplined (s.after step) rest

instance (s : Sessions) : (step : Step) → Decidable (s.Allowed step)
  | .enter h id _ => inferInstanceAs
      (Decidable (h ∉ s.relay.known ∧ id ∉ s.relay.known.map s.relay.idOf))
  | .frame h _ | .leave h => inferInstanceAs (Decidable (h ∈ s.relay.known ∧ h ∉ s.finished))
  | .write h _ _ => inferInstanceAs (Decidable (h ∈ s.relay.known))
  | .refill _ => .isTrue trivial

instance decidableDisciplined (s : Sessions) : (steps : List Step) → Decidable (s.Disciplined steps)
  | [] => .isTrue trivial
  | step :: rest =>
    have := decidableDisciplined (s.after step) rest
    inferInstanceAs (Decidable (s.Allowed step ∧ (s.after step).Disciplined rest))

theorem disciplined_append (s : Sessions) (steps later : List Step) :
    s.Disciplined (steps ++ later) ↔
      s.Disciplined steps ∧ (s.afterAll steps).Disciplined later := by
  induction steps generalizing s with
  | nil => simp [Disciplined, afterAll]
  | cons step rest ih => simp [Disciplined, afterAll, ih, and_assoc]

theorem afterAll_concat (s : Sessions) (steps : List Step) (step : Step) :
    s.afterAll (steps ++ [step]) = (s.afterAll steps).after step := by
  rw [afterAll, List.foldl_append]
  rfl

theorem proper_of_allowed {s : Sessions} {step : Step} (settled : s.relay.Settled)
    (allowed : s.Allowed step) : s.relay.Proper step.calls := by
  cases step with
  | enter h id capacity => exact ⟨allowed, trivial⟩
  | frame h f => exact ⟨Relay.admissible_of_known allowed.1 rfl rfl, trivial⟩
  | leave h =>
    have detaches : s.relay.Admissible (.detach h) :=
      Relay.admissible_of_known allowed.1 rfl rfl
    have later := Relay.mem_known_after settled detaches allowed.1
    exact ⟨detaches, Relay.admissible_of_known later rfl rfl, trivial⟩
  | write h socket held => exact ⟨Relay.admissible_of_known allowed rfl rfl, trivial⟩
  | refill codes => exact ⟨nofun, trivial⟩

/-- In some step a connection without a role took a seat in the room of a host. -/
def Joined (codes : CodeSource) (steps : List Step) (seat : Seat) (h host : Handle) : Prop :=
  ∃ before step, before ++ [step] <+: steps ∧
    (((initial codes).afterAll before).relay.peer h).role = .unassigned ∧
    ∃ room, Table.find? ((initial codes).afterAll (before ++ [step])).relay.rooms room.code =
        some room ∧ room.host = host ∧ h ∈ room.occupants seat

private theorem joined_concat {codes : CodeSource} {steps : List Step} {seat : Seat}
    {h host : Handle} (step : Step) (joined : Joined codes steps seat h host) :
    Joined codes (steps ++ [step]) seat h host := by
  obtain ⟨before, joining, early, rest⟩ := joined
  exact ⟨before, joining, early.trans (List.prefix_append steps [step]), rest⟩

theorem matched_after {s : Sessions} {step : Step}
    {joined later : Seat → Handle → Handle → Prop} (matched : s.relay.Matched s.finished joined)
    (allowed : s.Allowed step) (grows : ∀ seat h host, joined seat h host → later seat h host)
    (joins : ∀ seat h room, (s.relay.peer h).role = .unassigned →
      Table.find? (s.after step).relay.rooms room.code = some room → h ∈ room.occupants seat →
      later seat h room.host) :
    (s.after step).relay.Matched (s.after step).finished later := by
  have proper := proper_of_allowed matched.settled allowed
  cases step with
  | enter h id capacity =>
    refine matched.after proper.1 ?_ grows joins
    rintro k ⟨⟩ past
    exact absurd (matched.past h past) allowed.1
  | frame h f =>
    refine matched.after proper.1 ?_ grows joins
    rintro k ⟨⟩ past
    exact absurd past allowed.2
  | leave h =>
    refine (matched.after_detach allowed.1 allowed.2).after proper.2.1 ?_ grows ?_
    · rintro k ⟨⟩ past
      exact absurd past allowed.2
    · intro seat k room fresh live member
      refine joins seat k room ?_ live member
      have peer : (s.relay.after (.detach h)).peer k =
          if k = h then { s.relay.peer h with isOpen := false } else s.relay.peer k :=
        Relay.peer_setPeer s.relay h k _
      rw [peer] at fresh
      split at fresh
      · subst k
        exact fresh
      · exact fresh
  | write h socket held =>
    refine matched.after proper.1 ?_ grows joins
    rintro k ⟨⟩ past
    exact ⟨socket, held, rfl⟩
  | refill codes => exact matched.after proper.1 nofun grows joins

theorem matched_afterAll (codes : CodeSource) (steps : List Step)
    (disciplined : (initial codes).Disciplined steps) :
    ((initial codes).afterAll steps).relay.Matched ((initial codes).afterAll steps).finished
      (Joined codes steps) := by
  induction steps using List.reverseRecOn with
  | nil => exact Relay.matched_initial codes _
  | append_singleton steps step ih =>
    obtain ⟨earlier, allowed, _⟩ := (disciplined_append _ steps [step]).mp disciplined
    have matched := ih earlier
    rw [afterAll_concat]
    refine matched_after matched allowed (fun _ _ _ => joined_concat step) ?_
    intro seat h room fresh live member
    refine ⟨steps, step, List.prefix_refl _, fresh, room, ?_, rfl, member⟩
    rw [afterAll_concat]
    exact live

/-- The rooms of a relay account for its sessions, where members have joined hosts: a finished
session is in no room, a host's session has its room, and a member's session has its seat with the
host it joined or was cut loose because that host's session is finished. -/
structure Accounted (s : Sessions) (joined : Seat → Handle → Handle → Prop) : Prop where
  gone : ∀ h ∈ s.finished, h ∉ s.relay.housed
  hosting : ∀ h, h ∉ s.finished → (s.relay.peer h).role = .host →
    ∃ room, s.relay.room? (s.relay.peer h).room = some room ∧ room.host = h
  seated : ∀ h, h ∉ s.finished → ∀ seat : Seat, (s.relay.peer h).role = seat.role →
    ∃ host, joined seat h host ∧
      ((∃ room, s.relay.room? (s.relay.peer h).room = some room ∧ room.host = host ∧
          h ∈ room.occupants seat) ∨
        (s.relay.peer h).room = none ∧ (s.relay.peer h).isOpen = false ∧ host ∈ s.finished)
  count : s.relay.rooms.length =
    (s.relay.known.filter fun h => h ∉ s.finished ∧ (s.relay.peer h).role = .host).length
  empty : (∀ h ∈ s.relay.known, h ∈ s.finished) → s.relay.rooms = []

theorem accounted_of_matched {s : Sessions} {joined : Seat → Handle → Handle → Prop}
    (matched : s.relay.Matched s.finished joined) : s.Accounted joined := by
  refine ⟨matched.gone, ?_, ?_, matched.length_rooms, ?_⟩
  · intro h present role
    obtain ⟨room, live, host⟩ := matched.hosting h present role
    have own := (matched.settled.fits live).code_of_mem List.mem_cons_self
    rw [host] at own
    exact ⟨room, by rw [own]; exact live, host⟩
  · intro h present seat role
    obtain ⟨host, joined, ⟨room, live, hosted, member⟩ | cut⟩ := matched.seated h present seat role
    · have inside := List.mem_cons_of_mem room.host ((room.mem_members h).mpr ⟨seat, member⟩)
      have own := (matched.settled.fits live).code_of_mem inside
      exact ⟨host, joined, .inl ⟨room, by rw [own]; exact live, hosted, member⟩⟩
    · exact ⟨host, joined, .inr cut⟩
  · intro everyone
    rw [← List.length_eq_zero_iff, matched.length_rooms, List.length_eq_zero_iff,
      List.filter_eq_nil_iff]
    intro h known
    simp [everyone h known]

/-- However the sessions behind the endpoint interleave, the rooms account for them. -/
theorem accounted_afterAll (codes : CodeSource) (steps : List Step)
    (disciplined : (initial codes).Disciplined steps) :
    ((initial codes).afterAll steps).Accounted (Joined codes steps) :=
  accounted_of_matched (matched_afterAll codes steps disciplined)

/-- A host leaves, its code is used again, and the player it left behind goes on for a while. The
source of codes has run out when the last client asks for a room, and its session ends. -/
def crossing : List Step :=
  [.enter 0 "h" 4, .enter 1 "p" 4, .frame 0 (.text "\x7b\"type\":\"host\"\x7d"),
    .frame 1 (.text "\x7b\"type\":\"join\",\"roomCode\":\"a\"\x7d"), .leave 0, .enter 2 "k" 4,
    .frame 2 (.text "\x7b\"type\":\"host\"\x7d"), .write 1 (fun _ => .failed .peerGone) none,
    .enter 3 "s" 4, .frame 3 (.text "\x7b\"type\":\"host\"\x7d"), .leave 3, .frame 1 (.text "[]")]

theorem accounted_after_crossing :
    (initial (.listed ["a", "a"])).Disciplined crossing ∧
      ((initial (.listed ["a", "a"])).afterAll crossing).Accounted
        (Joined (.listed ["a", "a"]) crossing) :=
  ⟨by decide +kernel, accounted_afterAll _ _ (by decide +kernel)⟩

end Sessions

end GameRelay
