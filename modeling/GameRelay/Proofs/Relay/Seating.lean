import GameRelay.Proofs.Relay.Calls

/-!
# Who sits where

What a room holds and what its connections say of their own role and room fit together, and ids
tell connections apart. `Settled` says so of all live rooms; every call keeps it.
-/

set_option autoImplicit false
set_option relaxedAutoImplicit false

namespace GameRelay

namespace Seat

theorem role_ne_unassigned (seat : Seat) : seat.role ≠ .unassigned := by
  cases seat <;> exact nofun

theorem role_ne_host (seat : Seat) : seat.role ≠ .host := by
  cases seat <;> exact nofun

theorem role_injective : Function.Injective role := by
  intro one two same
  cases one with
  | player =>
    cases two with
    | player => rfl
    | spectator => cases same
  | spectator =>
    cases two with
    | player => cases same
    | spectator => rfl

end Seat

namespace Room

def occupants (room : Room) : Seat → List Handle
  | .player => room.players
  | .spectator => room.spectators

def without (room : Room) (h : Handle) : Room :=
  { room with
    players := room.players.filter (· ≠ h)
    spectators := room.spectators.filter (· ≠ h) }

theorem mem_members (room : Room) (h : Handle) :
    h ∈ room.members ↔ ∃ seat, h ∈ room.occupants seat := by
  rw [members, List.mem_append]
  constructor
  · rintro (player | spectator)
    · exact ⟨.player, player⟩
    · exact ⟨.spectator, spectator⟩
  · rintro ⟨seat, member⟩
    cases seat
    · exact .inl member
    · exact .inr member

@[simp] theorem occupants_new (code : String) (host : Handle) (seat : Seat) :
    (Room.new code host).occupants seat = [] := by
  cases seat <;> rfl

theorem occupants_admitted (room : Room) (seat place : Seat) (h : Handle) :
    (room.admitted seat h).occupants place =
      if place = seat then room.occupants place ++ [h] else room.occupants place := by
  cases seat <;> cases place <;> rfl

@[simp] theorem occupants_without (room : Room) (h : Handle) (seat : Seat) :
    (room.without h).occupants seat = (room.occupants seat).filter (· ≠ h) := by
  cases seat <;> rfl

theorem mem_members_without (room : Room) (h k : Handle) :
    k ∈ (room.without h).members ↔ k ∈ room.members ∧ k ≠ h := by
  simp only [without, members, List.mem_append, List.mem_filter, decide_eq_true_eq]
  tauto

theorem not_mem_members_remove (room : Room) (ids : Handle → String) (h : Handle) :
    h ∉ (room.remove ids h).members := by
  simp [remove, members]

theorem remove_eq_without {room : Room} {ids : Handle → String} {h : Handle}
    (apart : ∀ m ∈ room.members, ids m = ids h → m = h) : room.remove ids h = room.without h := by
  have same : ∀ m ∈ room.members, decide (ids m ≠ ids h) = decide (m ≠ h) := by
    intro m member
    rw [decide_eq_decide]
    exact not_congr ⟨apart m member, fun equal => by rw [equal]⟩
  rw [remove, without,
    List.filter_congr fun m member => same m (List.mem_append_left room.spectators member),
    List.filter_congr fun m member => same m (List.mem_append_right room.players member)]

end Room

namespace Relay

/-- A room that is live under a code fits what its connections say of themselves. -/
structure Fits (r : Relay) (code : String) (room : Room) : Prop where
  filed : room.code = code
  host : (r.peer room.host).standing = (.host, some code)
  seated : ∀ seat, ∀ h ∈ room.occupants seat, (r.peer h).standing = (seat.role, some code)
  once : ∀ seat, (room.occupants seat).Nodup
  present : ∀ h ∈ room.host :: room.members, h ∈ r.known

namespace Fits

variable {r : Relay} {code : String} {room : Room} (fits : r.Fits code room)
include fits

theorem host_not_mem : room.host ∉ room.members := by
  intro member
  obtain ⟨seat, member⟩ := (room.mem_members room.host).mp member
  have both := fits.host.symm.trans (fits.seated seat room.host member)
  exact seat.role_ne_host (congrArg Prod.fst both).symm

theorem nodup_members : room.members.Nodup := by
  refine List.nodup_append.mpr ⟨fits.once .player, fits.once .spectator, ?_⟩
  rintro h player k spectator rfl
  have both := (fits.seated .player h player).symm.trans (fits.seated .spectator h spectator)
  cases both

theorem code_of_mem {h : Handle} (member : h ∈ room.host :: room.members) :
    (r.peer h).room = some code := by
  rcases List.mem_cons.mp member with rfl | member
  · exact congrArg Prod.snd fits.host
  · obtain ⟨seat, member⟩ := (room.mem_members h).mp member
    exact congrArg Prod.snd (fits.seated seat h member)

theorem role_of_host : (r.peer room.host).role = .host :=
  congrArg Prod.fst fits.host

theorem role_of_mem {seat : Seat} {h : Handle} (member : h ∈ room.occupants seat) :
    (r.peer h).role = seat.role :=
  congrArg Prod.fst (fits.seated seat h member)

theorem of_standing {next : Relay} (known : ∀ k ∈ r.known, k ∈ next.known)
    (standing : ∀ k ∈ room.host :: room.members,
      (next.peer k).standing = (r.peer k).standing) : next.Fits code room where
  filed := fits.filed
  host := (standing room.host List.mem_cons_self).trans fits.host
  seated seat h member := by
    have inside := List.mem_cons_of_mem room.host ((room.mem_members h).mpr ⟨seat, member⟩)
    exact (standing h inside).trans (fits.seated seat h member)
  once := fits.once
  present h member := known h (fits.present h member)

theorem admitted {seat : Seat} {h : Handle} (outside : h ∉ room.members) (known : h ∈ r.known)
    (standing : (r.peer h).standing = (seat.role, some code)) :
    r.Fits code (room.admitted seat h) := by
  refine ⟨(room.code_admitted seat h).trans fits.filed, ?_, ?_, ?_, ?_⟩
  · rw [Room.host_admitted]
    exact fits.host
  · intro place k member
    rw [Room.occupants_admitted] at member
    split at member
    · subst place
      rcases List.mem_append.mp member with member | member
      · exact fits.seated seat k member
      · rw [List.mem_singleton.mp member, standing]
    · exact fits.seated place k member
  · intro place
    rw [Room.occupants_admitted]
    split
    · refine List.nodup_append.mpr ⟨fits.once place, List.nodup_singleton h, ?_⟩
      rintro k member m single rfl
      obtain rfl := List.mem_singleton.mp single
      exact outside ((room.mem_members k).mpr ⟨place, member⟩)
    · exact fits.once place
  · intro k member
    rw [Room.host_admitted, List.mem_cons, Room.mem_members_admitted] at member
    rcases member with rfl | member | rfl
    · exact fits.present _ List.mem_cons_self
    · exact fits.present k (List.mem_cons_of_mem _ member)
    · exact known

theorem without (h : Handle) : r.Fits code (room.without h) := by
  refine ⟨fits.filed, fits.host, ?_, ?_, ?_⟩
  · intro seat k member
    rw [Room.occupants_without] at member
    exact fits.seated seat k (List.mem_of_mem_filter member)
  · intro seat
    rw [Room.occupants_without]
    exact (fits.once seat).filter _
  · intro k member
    rcases List.mem_cons.mp member with rfl | member
    · exact fits.present _ List.mem_cons_self
    · have inside := ((room.mem_members_without h k).mp member).1
      exact fits.present k (List.mem_cons_of_mem _ inside)

end Fits

theorem fits_new {r : Relay} {code : String} {h : Handle} (known : h ∈ r.known)
    (standing : (r.peer h).standing = (.host, some code)) : r.Fits code (.new code h) where
  filed := rfl
  host := standing
  seated seat k member := by simp at member
  once seat := by simp
  present k member := by
    obtain rfl : k = h := by simpa [Room.new, Room.members] using member
    exact known

/-- The rooms of a relay and what its connections say of themselves fit together. -/
structure Settled (r : Relay) : Prop where
  keys : (Table.keys r.rooms).Nodup
  fits : ∀ {code : String} {room : Room}, Table.find? r.rooms code = some room → r.Fits code room
  unassigned : ∀ h, (r.peer h).role = .unassigned → (r.peer h).room = none
  ids : (r.known.map r.idOf).Nodup

theorem settled_initial (codes : CodeSource) : (initial codes).Settled where
  keys := List.nodup_nil
  fits := fun live => by cases live
  unassigned := fun _ _ => rfl
  ids := List.nodup_nil

namespace Settled

variable {r : Relay} (settled : r.Settled) {code : String} {room : Room}
include settled

theorem filed : r.Filed := fun _ _ live => (settled.fits live).filed

theorem nodup_known : r.known.Nodup := List.Nodup.of_map _ settled.ids

theorem eq_of_id {h k : Handle} (known : h ∈ r.known) (also : k ∈ r.known)
    (same : r.idOf h = r.idOf k) : h = k :=
  List.inj_on_of_nodup_map settled.ids known also same

theorem remove_eq_without (live : Table.find? r.rooms code = some room) {h : Handle}
    (known : h ∈ r.known) : room.remove r.idOf h = room.without h := by
  refine Room.remove_eq_without ?_
  intro m member same
  have present := (settled.fits live).present m (List.mem_cons_of_mem _ member)
  exact settled.eq_of_id present known same

theorem not_mem_of_unassigned (live : Table.find? r.rooms code = some room) {h : Handle}
    (role : (r.peer h).role = .unassigned) : h ∉ room.host :: room.members := by
  intro member
  have own := (settled.fits live).code_of_mem member
  rw [settled.unassigned h role] at own
  cases own

theorem after_disconnect_of_host (live : Table.find? r.rooms code = some room) :
    r.after (.disconnect room.host) = r.ended room := by
  have fits := settled.fits live
  have own : Table.find? r.rooms room.code = some room := by
    rw [fits.filed]
    exact live
  have found : r.room? (r.peer room.host).room = some room := by
    rw [fits.code_of_mem List.mem_cons_self]
    exact live
  exact after_of_ok (.disconnect room.host) (run_disconnect_of_host fits.role_of_host found own)

theorem eq_of_mem {other : String} {second : Room} (live : Table.find? r.rooms code = some room)
    (also : Table.find? r.rooms other = some second) {h : Handle}
    (member : h ∈ room.host :: room.members) (within : h ∈ second.host :: second.members) :
    room = second := by
  have codes := ((settled.fits live).code_of_mem member).symm.trans
    ((settled.fits also).code_of_mem within)
  cases codes
  cases live.symm.trans also
  rfl

end Settled

end Relay

end GameRelay
