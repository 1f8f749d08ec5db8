import GameRelay.Proofs.Relay.Deeds
import GameRelay.Proofs.Relay.Traffic
import Mathlib.Data.List.Induction

/-!
# Rosters

The lists of a live room are the history of its seats: those who took a seat of each kind since the
room was opened, in the order in which they did, without those whose session has ended since. What
happened in an earlier room under the same code does not come into it, nor do requests that were
refused.
-/

set_option autoImplicit false
set_option relaxedAutoImplicit false

namespace GameRelay

def Call.leaver? : Call → Option Handle
  | .disconnect h => some h
  | _ => none

def Deed.leaver? : Deed → Option Handle
  | .call c => c.leaver?
  | .draw | .delete _ => none

namespace Relay

/-- Who takes a seat of one kind in the room under a code: a request for a seat gives back the
room. -/
def seated? (r : Relay) (seat : Seat) (code : String) : Option Call → Option Handle
  | some (.seat place h requested) =>
    match (takeSeat place h requested).run r with
    | .ok (some room) _ => if place = seat ∧ room.code = code then some h else none
    | _ => none
  | _ => none

/-- Those who take a seat of one kind in the room under a code in the course of some deeds, in
order, without those whose session ends after that. -/
def roster (r : Relay) (seat : Seat) (code : String) : List Deed → List Handle
  | [] => []
  | d :: rest =>
    (r.seated? seat code (r.askedBy d)).toList.filter (fun h => some h ∉ rest.map Deed.leaver?) ++
      roster (r.afterDeed d) seat code rest

variable {r : Relay} {d : Deed} {seat : Seat} {code : String}

theorem roster_concat (ds : List Deed) :
    r.roster seat code (ds ++ [d]) =
      (r.roster seat code ds).filter (fun h => some h ≠ d.leaver?) ++
        ((r.afterDeeds ds).seated? seat code ((r.afterDeeds ds).askedBy d)).toList := by
  induction ds generalizing r with
  | nil => simp [roster, afterDeeds]
  | cons first rest ih =>
    have stays : (fun h : Handle => decide (some h ∉ (rest ++ [d]).map Deed.leaver?)) =
        fun h => decide (some h ≠ d.leaver?) && decide (some h ∉ rest.map Deed.leaver?) := by
      funext h
      simp only [List.map_append, List.map_cons, List.map_nil, List.mem_append,
        List.mem_singleton, not_or, Bool.decide_and, ne_eq]
      exact Bool.and_comm _ _
    rw [List.cons_append, roster, stays, ← List.filter_filter, ih, roster, List.filter_append,
      List.append_assoc]
    rfl

private theorem seated?_seat {h : Handle} {place : Seat} {room : Room}
    (role : (r.peer h).role = .unassigned) (live : Table.find? r.rooms room.code = some room) :
    r.seated? seat code (some (.seat place h (some room.code))) =
      if place = seat ∧ room.code = code then some h else none := by
  have found : r.room? (some room.code) = some room := live
  rw [seated?, run_takeSeat role found live]
  simp only [Room.code_admitted]

private theorem seat_of_seated? (filed : r.Filed) {asked : Option Call} {h : Handle}
    (seats : r.seated? seat code asked = some h) :
    asked = some (.seat seat h (some code)) ∧ (r.peer h).role = .unassigned ∧
      ∃ room, Table.find? r.rooms code = some room := by
  unfold seated? at seats
  split at seats
  · rename_i place k requested
    by_cases role : (r.peer k).role = .unassigned
    · cases found : r.room? requested with
      | none => simp [run_takeSeat_of_unknown place role found] at seats
      | some room =>
        obtain ⟨rfl, live⟩ := filed.live_of_room? found
        rw [run_takeSeat role found live] at seats
        simp only [Room.code_admitted] at seats
        split_ifs at seats with same
        obtain ⟨rfl, rfl⟩ := same
        cases seats
        exact ⟨rfl, role, room, live⟩
    · simp [run_takeSeat_of_assigned place requested role] at seats
  · cases seats

theorem leaver?_eq (r : Relay) (d : Deed) : d.leaver? = (r.askedBy d).bind Call.leaver? := by
  cases d with
  | call call =>
    cases call with
    | frame h f =>
      cases asks : r.ask h f with
      | none => simp [Deed.leaver?, Call.leaver?, askedBy, asked, asks]
      | some plain =>
        rcases ask_cases asks with rfl | ⟨place, code, rfl⟩ | ⟨payload, rfl⟩ <;>
          simp [Deed.leaver?, Call.leaver?, askedBy, asked, asks]
    | _ => rfl
  | draw => rfl
  | delete code => rfl

/-- A room goes on with its host, and its lists lose whoever leaves and gain whoever takes a seat,
at the end. -/
structure Continues (r : Relay) (d : Deed) (code : String) (room later : Room) : Prop where
  host : later.host = room.host
  occupants : ∀ seat, later.occupants seat =
    (room.occupants seat).filter (fun h => some h ≠ d.leaver?) ++
      (r.seated? seat code (r.askedBy d)).toList

private theorem continues_of_same (settled : r.Settled) (allowed : r.Allows d) {room : Room}
    (live : Table.find? r.rooms code = some room)
    (after : Table.find? (r.afterDeed d).rooms code = some room) :
    r.Continues d code room room := by
  refine ⟨rfl, fun seat => ?_⟩
  have stay : (room.occupants seat).filter (fun h => some h ≠ d.leaver?) =
      room.occupants seat := by
    rw [List.filter_eq_self]
    intro h member
    rw [decide_eq_true_eq, leaver?_eq r d]
    intro leaves
    obtain ⟨plain, asks, leaver⟩ := Option.bind_eq_some_iff.mp leaves.symm
    cases plain with
    | disconnect k =>
      cases leaver
      have inside := List.mem_cons_of_mem room.host ((room.mem_members h).mpr ⟨seat, member⟩)
      have gone := not_mem_housed_after_disconnect settled ((settled.fits live).present h inside)
      rw [afterDeed_of_askedBy asks] at after
      have next := settled_afterDeed settled allowed
      rw [afterDeed_of_askedBy asks] at next
      exact gone (next.mem_housed.mpr ⟨code, room, after, inside⟩)
    | _ => cases leaver
  cases seats : r.seated? seat code (r.askedBy d) with
  | none => rw [stay, Option.toList_none, List.append_nil]
  | some h =>
    obtain ⟨asks, role, -⟩ := seat_of_seated? settled.filed seats
    have grown : Table.find? (r.after (.seat seat h (some code))).rooms code =
        some (room.admitted seat h) := find?_after_seat settled.filed rfl role live
    rw [← afterDeed_of_askedBy asks] at grown
    have longer := congrArg (fun room => (room.occupants seat).length)
      (Option.some.inj (after.symm.trans grown))
    simp [Room.occupants_admitted] at longer

theorem continues_afterDeed (settled : r.Settled) (allowed : r.Allows d) {room later : Room}
    (live : Table.find? r.rooms code = some room)
    (after : Table.find? (r.afterDeed d).rooms code = some later) :
    r.Continues d code room later := by
  have untouched (found : Table.find? r.rooms code = some later) :
      r.Continues d code room later := by
    obtain rfl := Option.some.inj (live.symm.trans found)
    exact continues_of_same settled allowed live after
  rcases shift_afterDeed settled allowed with shift | ⟨-, fewer⟩
  · have found := after
    have leaver := leaver?_eq r d
    generalize asks : r.askedBy d = asked at shift leaver
    cases shift with
    | kept _ rooms standing =>
      rw [rooms] at found
      exact untouched found
    | opened h fresh role free rooms standing =>
      rw [rooms, Table.find?_put] at found
      split at found
      · subst code
        cases free.symm.trans live
      · exact untouched found
    | seated place h own role before rooms standing =>
      rw [rooms, Table.find?_put] at found
      split at found
      · subst code
        cases found
        cases before.symm.trans live
        refine ⟨room.host_admitted place h, ?_⟩
        intro seat
        rw [asks, leaver, seated?_seat role before, Room.occupants_admitted]
        by_cases mine : place = seat
        · simp [Call.leaver?, mine]
        · simp [Call.leaver?, mine, Ne.symm mine]
      · exact untouched found
    | left h own role mine before rooms standing =>
      rw [rooms, Table.find?_put] at found
      split at found
      · subst code
        cases found
        cases before.symm.trans live
        refine ⟨rfl, ?_⟩
        intro seat
        rw [asks, leaver, Room.occupants_without]
        simp [Call.leaver?, seated?]
      · exact untouched found
    | ended h own role mine before rooms standing shut =>
      rw [rooms, Table.find?_erase settled.keys] at found
      split at found
      · cases found
      · exact untouched found
  · exact untouched (fewer code later after)

/-- A room was opened by a deed and has gone on since with its host, and its lists are the history
of its seats. -/
structure Chronicle (r : Relay) (opening : Deed) (since : List Deed) (room : Room) : Prop where
  opened : r.opened? (r.askedBy opening) = some (.new room.code room.host)
  ever : ∀ part rest, since = part ++ rest →
    ∃ now, Table.find? ((r.afterDeed opening).afterDeeds part).rooms room.code = some now ∧
      now.host = room.host
  players : room.players = (r.afterDeed opening).roster .player room.code since
  spectators : room.spectators = (r.afterDeed opening).roster .spectator room.code since
  members : room.members = (r.afterDeed opening).roster .player room.code since ++
    (r.afterDeed opening).roster .spectator room.code since

private theorem chronicle_of_opened {room : Room} (opens : r.opened? (r.askedBy d) = some room)
    (live : Table.find? (r.afterDeed d).rooms room.code = some room) : r.Chronicle d [] room := by
  obtain ⟨h, -, -, -, new⟩ := newcomer_of_opened opens
  have only : room = .new room.code room.host :=
    new.trans (congrArg (Room.new room.code) (congrArg Room.host new).symm)
  refine ⟨opens.trans (congrArg some only), ?_, congrArg Room.players only,
    congrArg Room.spectators only, congrArg Room.members only⟩
  intro part rest whole
  obtain ⟨rfl, rfl⟩ := List.append_eq_nil_iff.mp whole.symm
  exact ⟨room, live, rfl⟩

theorem Chronicle.concat {opening : Deed} {since : List Deed} {room later : Room}
    (chronicle : r.Chronicle opening since room)
    (settled : ((r.afterDeed opening).afterDeeds since).Settled)
    (allowed : ((r.afterDeed opening).afterDeeds since).Allows d)
    (live : Table.find? ((r.afterDeed opening).afterDeeds since).rooms room.code = some room)
    (after : Table.find? ((r.afterDeed opening).afterDeeds (since ++ [d])).rooms room.code =
      some later) : r.Chronicle opening (since ++ [d]) later := by
  have step := after
  rw [afterDeeds_concat] at step
  obtain ⟨host, occupants⟩ := continues_afterDeed settled allowed live step
  have code : later.code = room.code := (settled_afterDeed settled allowed).filed _ _ step
  have players : later.players = (r.afterDeed opening).roster .player room.code (since ++ [d]) := by
    rw [roster_concat, ← chronicle.players]
    exact occupants .player
  have spectators : later.spectators =
      (r.afterDeed opening).roster .spectator room.code (since ++ [d]) := by
    rw [roster_concat, ← chronicle.spectators]
    exact occupants .spectator
  rw [← code] at players spectators
  refine ⟨by rw [code, host, chronicle.opened], ?_, players, spectators, ?_⟩
  · intro part rest whole
    rw [code, host]
    rcases List.eq_nil_or_concat rest with rfl | ⟨before, last, rfl⟩
    · rw [List.append_nil] at whole
      subst whole
      exact ⟨later, after, host⟩
    · refine chronicle.ever part before ?_
      rw [List.concat_eq_append, ← List.append_assoc] at whole
      exact (List.append_inj' whole rfl).1
  · rw [Room.members, players, spectators]

/-- Every room that is live after some deeds has a chronicle. -/
theorem chronicle_afterDeeds (settled : r.Settled) (nothing : r.rooms = []) {ds : List Deed}
    (allowed : r.AllowsAll ds) {code : String} {room : Room}
    (live : Table.find? (r.afterDeeds ds).rooms code = some room) :
    ∃ earlier opening since, ds = earlier ++ opening :: since ∧
      (r.afterDeeds earlier).Chronicle opening since room := by
  -- by induction on the deeds, from the last: it has opened the room, or the room has gone on
  induction ds using List.reverseRecOn generalizing room with
  | nil =>
    rw [afterDeeds, List.foldl_nil, nothing] at live
    cases live
  | append_singleton before d ih =>
    obtain ⟨allowed, last⟩ := (r.allowsAll_append before [d]).mp allowed
    have fits := settled_afterDeeds settled allowed
    have later := settled_afterDeed fits last.1
    cases held : Table.find? (r.afterDeeds before).rooms code with
    | none =>
      rw [afterDeeds_concat] at live
      have opens := opened?_of_new fits last.1 held live
      obtain rfl := later.filed code room live
      exact ⟨before, d, [], rfl, chronicle_of_opened opens live⟩
    | some old =>
      obtain ⟨earlier, opening, since, rfl, chronicle⟩ := ih allowed held
      obtain rfl := fits.filed code old held
      have whole (later : List Deed) : r.afterDeeds (earlier ++ opening :: later) =
          ((r.afterDeeds earlier).afterDeed opening).afterDeeds later :=
        r.afterDeeds_append earlier (opening :: later)
      have longer : earlier ++ opening :: since ++ [d] = earlier ++ opening :: (since ++ [d]) := by
        simp
      rw [whole] at fits held last
      rw [longer, whole] at live
      exact ⟨earlier, opening, since ++ [d], longer, chronicle.concat fits last.1 held live⟩

/-- Whatever is asked of a relay, the lists of each live room are the history of its seats. What
happened in earlier rooms under its code does not show. -/
theorem chronicled_afterDeeds (codes : CodeSource) (deeds : List Deed)
    (allowed : (initial codes).AllowsAll deeds) {code : String} {room : Room}
    (live : Table.find? ((initial codes).afterDeeds deeds).rooms code = some room) :
    room.code = code ∧ ∃ earlier opening since, deeds = earlier ++ opening :: since ∧
      ((initial codes).afterDeeds earlier).Chronicle opening since room :=
  ⟨(settled_afterDeeds (settled_initial codes) allowed).filed code room live,
    chronicle_afterDeeds (settled_initial codes) rfl allowed live⟩

/-- A room is ended while its player is in it, and another one is opened under its code. The player
of the first leaves, and so does one of the second, who had come by a frame. -/
def tenancies : List Deed :=
  ([.arrive 0 "h" 4, .arrive 1 "p" 4, .arrive 2 "k" 4, .arrive 3 "q" 4, .arrive 4 "s" 4,
    .arrive 5 "m" 4, .arrive 6 "n" 4, .host 0, .seat .player 1 (some "a")] : List Call).map .call ++
  [.delete "a", .call (.host 2),
    .call (.frame 3 (.text "\x7b\"type\":\"join\",\"roomCode\":\"a\"\x7d")),
    .call (.seat .spectator 4 (some "a")), .call (.seat .player 1 (some "a")),
    .call (.disconnect 1), .call (.seat .player 5 (some "a")),
    .call (.seat .spectator 5 (some "a")), .call (.disconnect 3),
    .call (.seat .player 6 (some "a")), .draw]

/-- The second room under the code has those in it who took a seat there and have not left. -/
theorem chronicled_after_tenancies :
    (initial (.listed ["a", "a", "b"])).AllowsAll tenancies ∧
      ∃ earlier opening since, tenancies = earlier ++ opening :: since ∧
        ((initial (.listed ["a", "a", "b"])).afterDeeds earlier).Chronicle opening since
          ⟨"a", 2, [5, 6], [4]⟩ := by
  have allowed : (initial (.listed ["a", "a", "b"])).AllowsAll tenancies := by decide +kernel
  have live : Table.find? ((initial (.listed ["a", "a", "b"])).afterDeeds tenancies).rooms "a" =
      some ⟨"a", 2, [5, 6], [4]⟩ := by decide +kernel
  exact ⟨allowed, (chronicled_afterDeeds _ tenancies allowed live).2⟩

end Relay

end GameRelay
