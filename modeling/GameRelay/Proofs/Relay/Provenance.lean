import GameRelay.ConnectionId
import GameRelay.Proofs.Relay.Regeneration

/-!
# Where the names in reports come from

A report shows ids and codes as they are, and whatever else a client chose between quotes. As long
as newcomers get ids from random bits, and codes come from random sources, every id and code that a
report shows was made by the server: none of them is a text that a client has sent.
-/

set_option autoImplicit false
set_option relaxedAutoImplicit false

namespace GameRelay

/-- A text that the server makes: an id from random bits, or a code. -/
def Coined (s : String) : Prop := (∃ bits, s = ConnectionId.ofBits bits) ∨ ∃ n, RoomCode.Shaped n s

/-- What a call brings as an id or as a source of codes is made by the server. -/
def Call.Coins : Call → Prop
  | .arrive _ id _ => ∃ bits, id = ConnectionId.ofBits bits
  | .refill codes => ∃ length draws, codes = .random length draws
  | _ => True

/-- What a deed brings as an id or as a source of codes is made by the server. -/
def Deed.Coins : Deed → Prop
  | .call c => c.Coins
  | .draw | .delete _ => True

namespace Event

/-- The ids and codes that an event shows as they are. -/
def names : Event → List String
  | .codeCollision code | .roomDeleted code => [code]
  | .malformedFrame id _ | .unknownRoom id _ | .inputIgnored id | .replyDropped id
  | .itemDropped id _ | .writerStopped id _ | .clientConnected id | .clientDisconnected id => [id]
  | .requestRejected id _ room => id :: room.toList
  | .roomCreated code id | .hostSkipped code id | .memberSkipped code id => [code, id]
  | .seatTaken _ id code | .spectatorInput id code | .memberLeft _ id code => [id, code]

/-- An event that shows no name but those that the server has made. -/
def Genuine (e : Event) : Prop := ∀ s ∈ e.names, Coined s

theorem Genuine.of_name {e : Event} {s : String} (coined : Coined s) (names : e.names = [s]) :
    e.Genuine := by
  unfold Genuine
  rwa [names, List.forall_mem_singleton]

theorem Genuine.of_names {e : Event} {s t : String} (first : Coined s) (second : Coined t)
    (names : e.names = [s, t]) : e.Genuine := by
  unfold Genuine
  rw [names]
  exact List.forall_mem_cons.mpr ⟨first, List.forall_mem_singleton.mpr second⟩

end Event

private theorem CodeSource.taken_of_collision {taken : String → Bool} {source : CodeSource}
    {code : String} (collided : code ∈ (source.search taken).collisions) : taken code = true := by
  fun_induction source.search taken with
  | case1 => cases collided
  | case2 source first rest next isTaken less later ih =>
    rcases List.mem_cons.mp collided with rfl | within
    · exact isTaken
    · exact ih within
  | case3 source first rest next isTaken more =>
    rw [List.mem_singleton.mp collided]
    exact isTaken
  | case4 => cases collided

namespace Relay

/-- All names that a relay knows or has shown are made by the server, and so is every code to
come. -/
structure Genuine (r : Relay) : Prop where
  ids : ∀ h, Coined (r.idOf h)
  own : ∀ h, ∀ code ∈ (r.peer h).room, Coined code
  rooms : ∀ entry ∈ r.rooms, entry.2.code = entry.1 ∧ Coined entry.1
  codes : ∃ length draws, r.codes = .random length draws
  journal : ∀ e ∈ r.journal, e.Genuine

theorem genuine_initial (length : Int) (draws : List (Fin 36)) :
    (initial (.random length draws)).Genuine where
  ids _ := .inr ⟨0, rfl, nofun⟩
  own _ := nofun
  rooms := nofun
  codes := ⟨length, draws, rfl⟩
  journal := nofun

namespace Genuine

variable {r : Relay} (genuine : r.Genuine)
include genuine

theorem filed : r.Filed := fun _ _ live => (genuine.rooms _ (Table.mem_of_find? live)).1

theorem coined_of_live {code : String} {room : Room}
    (live : Table.find? r.rooms code = some room) : Coined code :=
  (genuine.rooms _ (Table.mem_of_find? live)).2

theorem noted {e : Event} (event : e.Genuine) : (r.noted e).Genuine where
  ids := genuine.ids
  own := genuine.own
  rooms := genuine.rooms
  codes := genuine.codes
  journal := List.forall_mem_cons.mpr ⟨event, genuine.journal⟩

theorem setPeer (h : Handle) {c : Connection} (id : Coined c.id)
    (own : ∀ code ∈ c.room, Coined code) : (r.setPeer h c).Genuine where
  ids k := by
    rw [idOf, peer_setPeer]
    split
    · exact id
    · exact genuine.ids k
  own k := by
    rw [peer_setPeer]
    split
    · exact own
    · exact genuine.own k
  rooms := genuine.rooms
  codes := genuine.codes
  journal := genuine.journal

theorem setRoom (room : Room) (coined : Coined room.code) : (r.setRoom room.code room).Genuine where
  ids := genuine.ids
  own := genuine.own
  rooms entry member := by
    rcases Table.eq_or_mem_of_mem_put member with rfl | before
    · exact ⟨rfl, coined⟩
    · exact genuine.rooms entry before
  codes := genuine.codes
  journal := genuine.journal

theorem accepted (h : Handle) (item : Item) : (r.accepted h item).Genuine := by
  have received := genuine.setPeer h (c := (r.peer h).received item) (genuine.ids h) (genuine.own h)
  unfold Relay.accepted
  split
  · exact received.noted (.of_name (genuine.ids h) rfl)
  · exact received

theorem offered (h : Handle) (m : Message) {e : Event} (event : e.Genuine) :
    (r.offered h m e).Genuine := by
  unfold Relay.offered
  split
  · exact genuine.accepted h _
  · exact genuine.noted event

theorem closed (h : Handle) : (r.closed h).Genuine := by
  unfold Relay.closed
  split
  · exact (genuine.setPeer h (c := { r.peer h with isOpen := false }) (genuine.ids h)
      (genuine.own h)).accepted h _
  · exact genuine

theorem released (h : Handle) : (r.released h).Genuine :=
  (genuine.setPeer h (c := { r.peer h with room := none }) (genuine.ids h) nofun).closed h

theorem foldl {g : Relay → Handle → Relay}
    (step : ∀ (s : Relay) (h : Handle), s.Genuine → (g s h).Genuine) (hs : List Handle) :
    (hs.foldl g r).Genuine := by
  induction hs generalizing r with
  | nil => exact genuine
  | cons h rest ih => exact ih (step r h genuine)

theorem broadcasted {room : Room} (m : Message) (coined : Coined room.code) :
    (r.broadcasted room m).Genuine := by
  refine genuine.foldl ?_ room.members
  intro s h before
  exact before.offered h m (.of_names coined (before.ids h) rfl)

theorem emptied (room : Room) : (r.emptied room).Genuine :=
  genuine.foldl (fun _ h before => before.released h) room.members

theorem written (h : Handle) (socket : Nat → CallOutcome) (held : Option Item) :
    (r.written h socket held).Genuine := by
  have ran (isOpen : Bool) {s : Relay} (before : s.Genuine) :
      (s.setPeer h { r.peer h with
        outbox := (r.peer h).outbox.afterRun socket held, isOpen }).Genuine :=
    before.setPeer h (genuine.ids h) (genuine.own h)
  unfold Relay.written
  split
  · split
    · exact ran false ((ran _ genuine).noted (.of_name (genuine.ids h) rfl))
    · exact ran _ genuine
  · exact ran _ genuine

theorem searched : r.searched.Genuine where
  ids := genuine.ids
  own := genuine.own
  rooms := genuine.rooms
  codes := by
    obtain ⟨length, draws, source⟩ := genuine.codes
    obtain ⟨later, same⟩ :=
      CodeSource.rest_search_random (Table.contains r.rooms) length draws
    refine ⟨length, later, ?_⟩
    rw [codes_searched, codeSearch, source, same]
  journal e member := by
    rcases List.mem_append.mp member with collided | before
    · obtain ⟨code, within, rfl⟩ := List.mem_map.mp (List.mem_reverse.mp collided)
      obtain ⟨room, live⟩ := Option.isSome_iff_exists.mp (CodeSource.taken_of_collision within)
      exact .of_name (genuine.coined_of_live live) rfl
    · exact genuine.journal e before

private theorem coined_of_found {code : String} (found : r.codeSearch.outcome = .found code) :
    Coined code := by
  obtain ⟨length, draws, source⟩ := genuine.codes
  rw [codeSearch, source, CodeSource.outcome_search_eq_found_iff] at found
  exact .inr ⟨_, found.shaped⟩

theorem rejected (h : Handle) : (r.rejected h).Genuine := by
  have event : (Event.requestRejected (r.idOf h) (r.peer h).role (r.peer h).room).Genuine := by
    refine List.forall_mem_cons.mpr ⟨genuine.ids h, ?_⟩
    intro code member
    exact genuine.own h code (Option.mem_toList.mp member)
  exact (genuine.noted event).offered h _ (.of_name (genuine.ids h) rfl)

theorem opened (h : Handle) {code : String} (coined : Coined code) : (r.opened h code).Genuine := by
  have own : ∀ other ∈ some code, Coined other := by simp [coined]
  have hosting := (genuine.setRoom (.new code h) coined).setPeer h
    (c := { r.peer h with role := .host, room := some code }) (genuine.ids h) own
  exact (hosting.offered h _ (.of_name (genuine.ids h) rfl)).noted
    (.of_names coined (genuine.ids h) rfl)

theorem refused (h : Handle) (requested : Option String) : (r.refused h requested).Genuine :=
  (genuine.noted (.of_name (genuine.ids h) rfl)).offered h _ (.of_name (genuine.ids h) rfl)

theorem seated (seat : Seat) (h : Handle) {room : Room} (coined : Coined room.code) :
    (r.seated seat h room).Genuine := by
  have own : ∀ other ∈ some room.code, Coined other := by simp [coined]
  have sitting := (genuine.setPeer h
    (c := { r.peer h with role := seat.role, room := some room.code }) (genuine.ids h)
      own).setRoom (room.admitted seat h) (by rwa [Room.code_admitted])
  rw [Room.code_admitted] at sitting
  have answered := sitting.offered h (.seated seat room.code)
    (e := .replyDropped (r.idOf h)) (.of_name (genuine.ids h) rfl)
  refine Genuine.noted ?_ (.of_names (genuine.ids h) coined (by cases seat <;> rfl))
  cases seat with
  | player => exact answered.offered room.host _ (.of_names coined (answered.ids room.host) rfl)
  | spectator => exact answered

theorem routed (h : Handle) (payload : Json.Value) : (r.routed h payload).Genuine := by
  unfold Relay.routed
  split
  · exact genuine.noted (.of_name (genuine.ids h) rfl)
  · rename_i room found
    have coined := genuine.coined_of_live (genuine.filed.live_of_room? found).2
    split
    · split
      · exact genuine.offered room.host _ (.of_names coined (genuine.ids room.host) rfl)
      · exact genuine.broadcasted _ coined
      · exact genuine.noted (.of_names (genuine.ids h) coined rfl)
      · exact genuine
    · exact genuine.noted (.of_name (genuine.ids h) rfl)

theorem erased (code : String) :
    ({ r with rooms := Table.erase r.rooms code } : Relay).Genuine where
  ids := genuine.ids
  own := genuine.own
  rooms entry member := genuine.rooms entry ((Table.erase_sublist r.rooms code).subset member)
  codes := genuine.codes
  journal := genuine.journal

theorem ended {room : Room} (coined : Coined room.code) : (r.ended room).Genuine :=
  ((genuine.emptied room).erased room.code).noted (.of_name coined rfl)

theorem left (h : Handle) {room : Room} (coined : Coined room.code) : (r.left h room).Genuine :=
  (genuine.setRoom (room.remove r.idOf h) coined).noted
    (.of_names (genuine.ids h) coined rfl)

/-- After a call that coins the names it brings, the relay knows such names only. -/
theorem after {call : Call} (coins : call.Coins) : (r.after call).Genuine := by
  have effect := effect_after genuine.filed call
  have brings : ∀ plain ∈ r.asked call, plain.Coins := by
    intro plain asks
    cases call with
    | frame h f => rcases ask_cases asks with rfl | ⟨_, _, rfl⟩ | ⟨_, rfl⟩ <;> trivial
    | _ => exact Option.some.inj asks ▸ coins
  -- the list of effects keeps back what an ignored input reports, so inputs are taken as routed
  have routing {h : Handle} {payload : Json.Value} (asks : r.asked call = some (.input h payload)) :
      (r.after call).Genuine := by
    rw [after_of_asked asks, after_input]
    exact genuine.routed h payload
  generalize r.asked call = asked, r.after call = next at effect brings routing ⊢
  cases effect with
  | malformed h f => exact genuine.noted (.of_name (genuine.ids h) rfl)
  | arrived h id capacity =>
    obtain ⟨bits, coined⟩ := brings _ rfl
    exact genuine.setPeer h (.inl ⟨bits, coined⟩) nofun
  | rejectedHost h role => exact genuine.rejected h
  | searchedInVain h role vain => exact genuine.searched
  | opened h code role found => exact genuine.searched.opened h (genuine.coined_of_found found)
  | rejectedSeat seat h requested role => exact genuine.rejected h
  | refused seat h requested role unknown => exact genuine.refused h requested
  | seated seat h room role live => exact genuine.seated seat h (genuine.coined_of_live live)
  | playerInput | hostInput | ignoredInput => exact routing rfl
  | homeless h homeless => exact genuine
  | ended h room role own live => exact genuine.ended (genuine.coined_of_live live)
  | left h room role own live => exact genuine.left h (genuine.coined_of_live live)
  | closed h => exact genuine.closed h
  | detached h =>
    exact genuine.setPeer h (c := { r.peer h with isOpen := false }) (genuine.ids h) (genuine.own h)
  | written h socket held => exact genuine.written h socket held
  | refilled codes =>
    exact ⟨genuine.ids, genuine.own, genuine.rooms, brings _ rfl, genuine.journal⟩

theorem afterDeed {d : Deed} (coins : d.Coins) : (r.afterDeed d).Genuine := by
  cases d with
  | call call => exact genuine.after coins
  | draw =>
    rw [afterDeed_draw]
    exact genuine.searched
  | delete code =>
    rw [afterDeed_delete]
    split
    · rename_i taken
      obtain ⟨room, live⟩ := Option.isSome_iff_exists.mp taken
      exact (genuine.erased code).noted (.of_name (genuine.coined_of_live live) rfl)
    · exact genuine

theorem afterDeeds {ds : List Deed} (coins : ∀ d ∈ ds, d.Coins) : (r.afterDeeds ds).Genuine := by
  induction ds generalizing r with
  | nil => exact genuine
  | cons d rest ih =>
    obtain ⟨first, coins⟩ := List.forall_mem_cons.mp coins
    exact ih (genuine.afterDeed first) coins

end Genuine

end Relay

end GameRelay
