import GameRelay.Proofs.RoomCode
import GameRelay.Proofs.Relay.Deeds

/-!
# Fresh codes

A room that is opened has the first code of its source that no live room has, and what comes before
that code in the source is passed over. A source fails only when there is no such code in it. So
rooms that are opened one after another, with no room ended in between, all have codes of their own,
whatever the source repeats.
-/

set_option autoImplicit false
set_option relaxedAutoImplicit false

namespace GameRelay.Relay

variable {r : Relay} {d : Deed} {h : Handle}

/-- What comes of a newcomer's request for a room when the source has a list of codes to give. -/
structure Creates (r : Relay) (h : Handle) (stream : List String) : Prop where
  opens : ∀ passed code rest, stream = passed ++ code :: rest →
    (∀ other ∈ passed, other ∈ r.liveCodes) → code ∉ r.liveCodes →
      ∃ next, (createRoom h).run r = .ok (some (.new code h)) next ∧ next.codes = .listed rest ∧
        next.rooms = r.rooms ++ [(code, .new code h)]
  fails_iff : (∃ fault next, (createRoom h).run r = .error fault next) ↔
    ∀ code ∈ stream, code ∈ r.liveCodes
  fault : ∀ fault next, (createRoom h).run r = .error fault next →
    fault = .source .codesExhausted ∧ next.codes = .listed [] ∧ next.rooms = r.rooms ∧
      next.peers = r.peers

/-- A stream in which some code is free splits at the first one that is. -/
private theorem split_at_first_free {stream : List String}
    (some_free : ¬∀ code ∈ stream, code ∈ r.liveCodes) :
    ∃ passed code rest, stream = passed ++ code :: rest ∧
      (∀ other ∈ passed, other ∈ r.liveCodes) ∧ code ∉ r.liveCodes := by
  cases found : stream.find? (· ∉ r.liveCodes) with
  | none => exact absurd (by simpa using List.find?_eq_none.mp found) some_free
  | some code =>
    obtain ⟨free, passed, rest, split, all⟩ := List.find?_eq_some_iff_append.mp found
    exact ⟨passed, code, rest, split, by simpa using all, by simpa using free⟩

section
variable {stream : List String} (codes : r.codes = .listed stream)
include codes

theorem codeSearch_of_free {passed rest : List String} {code : String}
    (split : stream = passed ++ code :: rest) (all : ∀ other ∈ passed, other ∈ r.liveCodes)
    (free : code ∉ r.liveCodes) : r.codeSearch = ⟨passed, .found code, .listed rest⟩ := by
  subst split
  rw [codeSearch, codes]
  refine CodeSource.search_listed_of_free ?_ ((r.contains_rooms_eq_false_iff code).mpr free) rest
  exact fun other member => (r.contains_rooms_iff other).mpr (all other member)

theorem codeSearch_of_live (all : ∀ code ∈ stream, code ∈ r.liveCodes) :
    r.codeSearch = ⟨stream, .failed .codesExhausted, .listed []⟩ := by
  rw [codeSearch, codes]
  refine CodeSource.search_listed_of_taken ?_
  exact fun code member => (r.contains_rooms_iff code).mpr (all code member)

theorem run_createRoom_of_live (role : (r.peer h).role = .unassigned)
    (all : ∀ code ∈ stream, code ∈ r.liveCodes) :
    (createRoom h).run r = .error (.source .codesExhausted) r.searched := by
  rw [run_createRoom role, codeSearch_of_live codes all]

theorem run_createRoom_of_free (role : (r.peer h).role = .unassigned) {passed rest : List String}
    {code : String} (split : stream = passed ++ code :: rest)
    (all : ∀ other ∈ passed, other ∈ r.liveCodes) (free : code ∉ r.liveCodes) :
    (createRoom h).run r = .ok (some (.new code h)) (r.searched.opened h code) := by
  rw [run_createRoom role, codeSearch_of_free codes split all free]

/-- A newcomer gets the first free code that its source gives, if there is one. -/
private theorem creates_of_unassigned (role : (r.peer h).role = .unassigned) :
    r.Creates h stream := by
  refine ⟨?_, ⟨?_, ?_⟩, ?_⟩
  · intro passed code rest split all free
    refine ⟨_, run_createRoom_of_free codes role split all free, ?_, ?_⟩
    · rw [codes_opened, codes_searched, codeSearch_of_free codes split all free]
    · exact rooms_opened_of_free h ((Table.find?_eq_none_iff _ _).mpr free)
  · rintro ⟨fault, next, run⟩
    by_contra some_free
    obtain ⟨passed, code, rest, split, all, free⟩ := split_at_first_free some_free
    cases run.symm.trans (run_createRoom_of_free codes role split all free)
  · exact fun all => ⟨_, _, run_createRoom_of_live codes role all⟩
  · intro fault next run
    by_cases all : ∀ code ∈ stream, code ∈ r.liveCodes
    · cases run.symm.trans (run_createRoom_of_live codes role all)
      refine ⟨rfl, ?_, rfl, rfl⟩
      rw [codes_searched, codeSearch_of_live codes all]
    · obtain ⟨passed, code, rest, split, all, free⟩ := split_at_first_free all
      cases run.symm.trans (run_createRoom_of_free codes role split all free)

end

def openings (r : Relay) : List Deed → List String
  | [] => []
  | d :: rest => ((r.opened? (r.askedBy d)).map Room.code).toList ++ openings (r.afterDeed d) rest

/-- No room is ended by any of some deeds. -/
def Untorn (r : Relay) : List Deed → Prop
  | [] => True
  | d :: rest => (∀ code ∈ r.liveCodes, code ∈ (r.afterDeed d).liveCodes) ∧
    Untorn (r.afterDeed d) rest

instance decidableUntorn (r : Relay) : (ds : List Deed) → Decidable (r.Untorn ds)
  | [] => .isTrue trivial
  | d :: rest =>
    have := decidableUntorn (r.afterDeed d) rest
    inferInstanceAs (Decidable ((∀ code ∈ r.liveCodes, code ∈ (r.afterDeed d).liveCodes) ∧
      (r.afterDeed d).Untorn rest))

/-- A room is ended only when it is to be deleted, or by the end of the session of a host. -/
theorem torn_by (settled : r.Settled) (allowed : r.Allows d) {code : String}
    (live : code ∈ r.liveCodes) (gone : code ∉ (r.afterDeed d).liveCodes) :
    d = .delete code ∨ ∃ h, r.askedBy d = some (.disconnect h) ∧ (r.peer h).role = .host ∧
      (r.peer h).room = some code := by
  have free : Table.find? (r.afterDeed d).rooms code = none :=
    (Table.find?_eq_none_iff _ _).mpr gone
  have held : Table.find? r.rooms code ≠ none := fun none =>
    (Table.find?_eq_none_iff _ _).mp none live
  cases d with
  | delete other =>
    rw [rooms_afterDeed_delete] at free
    split at free
    · rw [Table.find?_erase settled.keys] at free
      split at free
      · subst code
        exact .inl rfl
      · exact absurd free held
    · exact absurd free held
  | draw =>
    rw [afterDeed_draw] at free
    exact absurd free held
  | call call =>
    refine .inr ?_
    have shift : r.Shift (r.askedBy (.call call)) (r.afterDeed (.call call)) :=
      shift_after settled allowed
    have grown {other : String} {room : Room} :
        (r.afterDeed (.call call)).rooms ≠ Table.put r.rooms other room := by
      intro rooms
      rw [rooms, Table.find?_put] at free
      split at free
      · cases free
      · exact absurd free held
    generalize r.askedBy (.call call) = asked at shift ⊢
    cases shift with
    | kept _ rooms standing => exact absurd (rooms ▸ free) held
    | opened h code role unused rooms standing => exact absurd rooms grown
    | seated seat h room role before rooms standing => exact absurd rooms grown
    | left h room role own before rooms standing => exact absurd rooms grown
    | ended h room role own before rooms standing shut =>
      rw [rooms, Table.find?_erase settled.keys] at free
      split at free
      · subst code
        exact ⟨h, rfl, role, own⟩
      · exact absurd free held

/-- A room that is opened has a code that was free, and it is live from then on. -/
private theorem openings_of_untorn {ds : List Deed} (untorn : r.Untorn ds) :
    (r.openings ds).Nodup ∧ ∀ code ∈ r.openings ds, code ∉ r.liveCodes := by
  induction ds generalizing r with
  | nil => exact ⟨List.nodup_nil, nofun⟩
  | cons d rest ih =>
    obtain ⟨apart, fresh⟩ := ih untorn.2
    have old : ∀ code ∈ (r.afterDeed d).openings rest, code ∉ r.liveCodes :=
      fun code member live => fresh code member (untorn.1 code live)
    rw [openings]
    cases opens : r.opened? (r.askedBy d) with
    | none => exact ⟨apart, old⟩
    | some room =>
      obtain ⟨free, rooms⟩ := rooms_of_opened opens
      have unused : room.code ∉ r.liveCodes := (Table.find?_eq_none_iff _ _).mp free
      have live : room.code ∈ (r.afterDeed d).liveCodes := by
        simp [liveCodes, rooms, Table.keys]
      refine ⟨List.nodup_cons.mpr ⟨fun again => fresh _ again live, apart⟩, ?_⟩
      exact List.forall_mem_cons.mpr ⟨unused, old⟩

/-- Every room that is opened takes the first free code of its source and leaves the others as they
are, and so no code comes twice in a burst. -/
theorem opens_with_fresh_codes (r : Relay) (stream : List String)
    (codes : r.codes = .listed stream) :
    (∀ h, (r.peer h).role = .unassigned → r.Creates h stream) ∧
      ∀ deeds, r.Untorn deeds →
        (r.openings deeds).Nodup ∧ ∀ code ∈ r.openings deeds, code ∉ r.liveCodes :=
  ⟨fun _ => creates_of_unassigned codes, fun _ => openings_of_untorn⟩

/-- A first host has its room, and four clients more have come. -/
def foyer : List Deed :=
  ([.arrive 0 "h" 4, .arrive 1 "k" 4, .arrive 2 "l" 4, .arrive 3 "m" 4, .arrive 4 "p" 4,
    .host 0] : List Call).map .call

/-- Others open rooms too, one of them asks again, and a player comes and goes. The source has no
code left for the last. -/
def rush : List Deed :=
  ([.host 1, .seat .player 4 (some "a"), .host 1, .frame 2 (.text "\x7b\"type\":\"host\"\x7d"),
    .disconnect 4, .host 3] : List Call).map .call

/-- The source repeats two codes, and each room has one of its own. -/
theorem fresh_codes_of_rush :
    let r := (initial (.listed ["a", "a", "b", "a", "c", "b"])).afterDeeds foyer
    r.codes = .listed ["a", "b", "a", "c", "b"] ∧ (r.peer 1).role = .unassigned ∧
      r.Creates 1 ["a", "b", "a", "c", "b"] ∧ r.Untorn rush ∧ r.openings rush = ["b", "c"] ∧
      (r.openings rush).Nodup ∧ ∀ code ∈ r.openings rush, code ∉ r.liveCodes := by
  intro r
  have codes : r.codes = .listed ["a", "b", "a", "c", "b"] := by decide +kernel
  have role : (r.peer 1).role = .unassigned := by decide +kernel
  have untorn : r.Untorn rush := by decide +kernel
  have opened : r.openings rush = ["b", "c"] := by decide +kernel
  obtain ⟨creates, fresh⟩ := opens_with_fresh_codes r _ codes
  exact ⟨codes, role, creates 1 role, untorn, opened, fresh rush untorn⟩

end GameRelay.Relay
