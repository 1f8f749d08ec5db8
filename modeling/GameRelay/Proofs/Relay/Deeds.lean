import GameRelay.Proofs.Relay.Shifts

/-!
# Deeds

All that can be asked of a relay: besides calls, a free code that nobody is to have, and the end of
whatever room is live under a code. Deeds of these two kinds touch no connection, so rooms and
connections fit together after any deeds. A deed opens a room when it asks for one and gets it.
-/

set_option autoImplicit false
set_option relaxedAutoImplicit false

namespace GameRelay

inductive Deed
  | call (call : Call)
  /-- A free code, of which no use is made. -/
  | draw
  /-- The end of the room under a code, whoever is in it. -/
  | delete (code : String)

def Deed.action : Deed → Action Unit
  | .call c => c.action
  | .draw => do let _ ← Relay.generateCode
  | .delete code => Relay.deleteRoom code

namespace Relay

/-- The state after a deed. A deed that fails keeps what it changed before it failed. -/
def afterDeed (r : Relay) (d : Deed) : Relay :=
  match d.action.run r with
  | .ok _ next | .error _ next => next

def afterDeeds (r : Relay) (ds : List Deed) : Relay := ds.foldl afterDeed r

/-- A deed can be done: codes and ends of rooms may be asked for at any time. -/
def Allows (r : Relay) : Deed → Prop
  | .call call => r.Admissible call
  | .draw | .delete _ => True

def AllowsAll (r : Relay) : List Deed → Prop
  | [] => True
  | d :: rest => r.Allows d ∧ AllowsAll (r.afterDeed d) rest

instance (r : Relay) : (d : Deed) → Decidable (r.Allows d)
  | .call call => inferInstanceAs (Decidable (r.Admissible call))
  | .draw | .delete _ => .isTrue trivial

instance decidableAllowsAll (r : Relay) : (ds : List Deed) → Decidable (r.AllowsAll ds)
  | [] => .isTrue trivial
  | d :: rest =>
    have := decidableAllowsAll (r.afterDeed d) rest
    inferInstanceAs (Decidable (r.Allows d ∧ (r.afterDeed d).AllowsAll rest))

theorem afterDeeds_append (r : Relay) (ds later : List Deed) :
    r.afterDeeds (ds ++ later) = (r.afterDeeds ds).afterDeeds later :=
  List.foldl_append

theorem afterDeeds_concat (r : Relay) (ds : List Deed) (d : Deed) :
    r.afterDeeds (ds ++ [d]) = (r.afterDeeds ds).afterDeed d :=
  r.afterDeeds_append ds [d]

theorem allowsAll_append (r : Relay) (ds later : List Deed) :
    r.AllowsAll (ds ++ later) ↔ r.AllowsAll ds ∧ (r.afterDeeds ds).AllowsAll later := by
  induction ds generalizing r with
  | nil => simp [AllowsAll, afterDeeds]
  | cons d rest ih => simp [AllowsAll, afterDeeds, ih, and_assoc]

theorem afterDeed_draw (r : Relay) : r.afterDeed .draw = r.searched := by
  have run : Deed.draw.action.run r = (do let _ ← generateCode : Action Unit).run r := rfl
  simp only [EStateM.run_bind, run_generateCode] at run
  rw [afterDeed, run]
  cases r.codeSearch.outcome <;> rfl

theorem afterDeed_delete (r : Relay) (code : String) :
    r.afterDeed (.delete code) =
      if Table.contains r.rooms code then
        { r with rooms := Table.erase r.rooms code }.noted (.roomDeleted code)
      else r := by
  cases found : Table.find? r.rooms code with
  | none =>
    have unknown : ¬Table.contains r.rooms code := by simp [Table.contains, found]
    simp only [afterDeed, Deed.action, deleteRoom, EStateM.run_bind, EStateM.run_get, unknown]
    rfl
  | some room =>
    have known : Table.contains r.rooms code := by simp [Table.contains, found]
    rw [afterDeed, Deed.action, run_deleteRoom found, if_pos known]

theorem rooms_afterDeed_delete (r : Relay) (code : String) :
    (r.afterDeed (.delete code)).rooms =
      if Table.contains r.rooms code then Table.erase r.rooms code else r.rooms := by
  rw [afterDeed_delete]
  split <;> rfl

private theorem peers_afterDeed_delete (r : Relay) (code : String) :
    (r.afterDeed (.delete code)).peers = r.peers := by
  rw [afterDeed_delete]
  split <;> rfl

theorem live_of_delete {r : Relay} (keys : (Table.keys r.rooms).Nodup) {code other : String}
    {room : Room} (live : Table.find? (r.afterDeed (.delete code)).rooms other = some room) :
    Table.find? r.rooms other = some room := by
  rw [rooms_afterDeed_delete] at live
  split at live
  · rw [Table.find?_erase keys] at live
    split at live
    · cases live
    · exact live
  · exact live

theorem Settled.of_fewer {r next : Relay} (settled : r.Settled) (peers : next.peers = r.peers)
    (keys : (Table.keys next.rooms).Nodup)
    (fewer : ∀ code room, Table.find? next.rooms code = some room →
      Table.find? r.rooms code = some room) : next.Settled := by
  have peer (k : Handle) : next.peer k = r.peer k := by rw [peer, peers, ← peer]
  have known : next.known = r.known := congrArg Table.keys peers
  refine ⟨keys, ?_, ?_, ?_⟩
  · intro code room live
    refine (settled.fits (fewer code room live)).of_standing ?_ fun k _ => by rw [peer]
    intro k before
    rwa [known]
  · intro k
    rw [peer]
    exact settled.unassigned k
  · have named : next.idOf = r.idOf := funext fun k => congrArg Connection.id (peer k)
    rw [known, named]
    exact settled.ids

theorem settled_afterDeed {r : Relay} (settled : r.Settled) {d : Deed} (allowed : r.Allows d) :
    (r.afterDeed d).Settled := by
  cases d with
  | call call => exact settled_after settled allowed
  | draw =>
    rw [afterDeed_draw]
    exact settled.of_fewer rfl settled.keys fun _ _ live => live
  | delete code =>
    refine settled.of_fewer (peers_afterDeed_delete r code) ?_ ?_
    · rw [rooms_afterDeed_delete]
      split
      · exact Table.nodup_keys_erase settled.keys code
      · exact settled.keys
    · exact fun _ _ => live_of_delete settled.keys

theorem settled_afterDeeds {r : Relay} (settled : r.Settled) {ds : List Deed}
    (allowed : r.AllowsAll ds) : (r.afterDeeds ds).Settled := by
  induction ds generalizing r with
  | nil => exact settled
  | cons d rest ih => exact ih (settled_afterDeed settled allowed.1) allowed.2

def liveCodes (r : Relay) : List String := Table.keys r.rooms

theorem contains_rooms_iff (r : Relay) (code : String) :
    Table.contains r.rooms code = true ↔ code ∈ r.liveCodes :=
  Table.contains_iff_mem_keys r.rooms code

theorem contains_rooms_eq_false_iff (r : Relay) (code : String) :
    Table.contains r.rooms code = false ↔ code ∉ r.liveCodes := by
  rw [← contains_rooms_iff, Bool.not_eq_true]

def askedBy (r : Relay) : Deed → Option Call
  | .call call => r.asked call
  | .draw | .delete _ => none

def opened? (r : Relay) : Option Call → Option Room
  | some (.host h) =>
    match (createRoom h).run r with
    | .ok room _ => room
    | .error _ _ => none
  | _ => none

variable {r : Relay} {d : Deed} {h : Handle}

theorem afterDeed_of_askedBy {plain : Call} (asks : r.askedBy d = some plain) :
    r.afterDeed d = r.after plain := by
  cases d with
  | call call => exact after_of_asked asks
  | draw => cases asks
  | delete code => cases asks

/-- A deed is felt as a call is, or it asks for nothing and brings no room. -/
theorem shift_afterDeed (settled : r.Settled) (allowed : r.Allows d) :
    r.Shift (r.askedBy d) (r.afterDeed d) ∨
      r.askedBy d = none ∧ ∀ code room, Table.find? (r.afterDeed d).rooms code = some room →
        Table.find? r.rooms code = some room := by
  cases d with
  | call call => exact .inl (shift_after settled allowed)
  | draw =>
    rw [afterDeed_draw]
    exact .inl (.kept _ rfl fun _ => rfl)
  | delete code => exact .inr ⟨rfl, fun other room => live_of_delete settled.keys⟩

theorem opened?_host (role : (r.peer h).role = .unassigned) :
    r.opened? (some (.host h)) =
      match r.codeSearch.outcome with
      | .found code => some (.new code h)
      | .failed _ | .endless => none := by
  rw [opened?, run_createRoom role]
  cases r.codeSearch.outcome <;> rfl

private theorem opened?_of_assigned (role : (r.peer h).role ≠ .unassigned) :
    r.opened? (some (.host h)) = none := by
  rw [opened?, run_createRoom_of_assigned role]

/-- A room is opened for a newcomer, under a code that a search finds. -/
theorem newcomer_of_opened {asked : Option Call} {room : Room}
    (opens : r.opened? asked = some room) :
    ∃ h, asked = some (.host h) ∧ (r.peer h).role = .unassigned ∧
      r.codeSearch.outcome = .found room.code ∧ room = .new room.code h := by
  unfold opened? at opens
  split at opens
  · rename_i h
    change r.opened? (some (.host h)) = some room at opens
    by_cases role : (r.peer h).role = .unassigned
    · rw [opened?_host role] at opens
      cases outcome : r.codeSearch.outcome with
      | found code =>
        rw [outcome] at opens
        cases opens
        exact ⟨h, rfl, role, rfl, rfl⟩
      | failed fault => simp [outcome] at opens
      | endless => simp [outcome] at opens
    · rw [opened?_of_assigned role] at opens
      cases opens
  · cases opens

theorem rooms_of_opened {room : Room} (opens : r.opened? (r.askedBy d) = some room) :
    Table.find? r.rooms room.code = none ∧
      (r.afterDeed d).rooms = r.rooms ++ [(room.code, room)] := by
  obtain ⟨h, asks, role, outcome, new⟩ := newcomer_of_opened opens
  have free := free_of_codeSearch outcome
  have run := run_host role
  rw [outcome] at run
  refine ⟨free, ?_⟩
  rw [afterDeed_of_askedBy asks, after_of_ok (.host h) run]
  exact (rooms_opened_of_free h (r := r.searched) free).trans (by rw [← new, rooms_searched])

private theorem rooms_of_not_opened (asks : r.askedBy d = some (.host h))
    (none : r.opened? (some (.host h)) = none) : (r.afterDeed d).rooms = r.rooms := by
  rw [afterDeed_of_askedBy asks]
  by_cases role : (r.peer h).role = .unassigned
  · rw [opened?_host role] at none
    rw [after, run_host role]
    cases outcome : r.codeSearch.outcome with
    | found code => simp [outcome] at none
    | failed fault => rfl
    | endless => rfl
  · rw [after_of_ok (.host h) (run_host_of_assigned role), rooms_rejected]

/-- A room that was not there before a deed was opened by it. -/
theorem opened?_of_new (settled : r.Settled) (allowed : r.Allows d) {code : String}
    {room : Room} (free : Table.find? r.rooms code = none)
    (live : Table.find? (r.afterDeed d).rooms code = some room) :
    r.opened? (r.askedBy d) = some room := by
  have changed {other : String} {old new : Room} (before : Table.find? r.rooms other = some old) :
      (r.afterDeed d).rooms ≠ Table.put r.rooms other new := by
    intro rooms
    rw [rooms, Table.find?_put] at live
    split at live
    · subst code
      cases free.symm.trans before
    · cases free.symm.trans live
  rcases shift_afterDeed settled allowed with shift | ⟨-, fewer⟩
  · generalize asks : r.askedBy d = asked at shift ⊢
    cases shift with
    | kept _ rooms standing => cases free.symm.trans (rooms ▸ live)
    | opened h fresh role unused rooms standing =>
      cases opens : r.opened? (some (.host h)) with
      | none => cases free.symm.trans (rooms_of_not_opened asks opens ▸ live)
      | some opening =>
        obtain ⟨unused, appended⟩ := rooms_of_opened (asks ▸ opens)
        have put := Table.put_of_not_mem opening ((Table.find?_eq_none_iff _ _).mp unused)
        rw [appended, ← put, Table.find?_put] at live
        split at live
        · exact live
        · cases free.symm.trans live
    | seated place h held role before rooms standing => exact absurd rooms (changed before)
    | left h held role own before rooms standing => exact absurd rooms (changed before)
    | ended h held role own before rooms standing shut =>
      rw [rooms, Table.find?_erase settled.keys] at live
      split at live
      · cases live
      · cases free.symm.trans live
  · cases free.symm.trans (fewer code room live)

end Relay

end GameRelay
