import GameRelay.Proofs.Relay.Careers
import GameRelay.Proofs.Relay.Payloads

/-!
# Invitations

A host is told the code of its new room, and whoever is given that code can ask for a seat with it,
under either spelling of the key. However the code is written, it is read back as it was, and for
as long as the room is live it leads to that room and to no other.
-/

set_option autoImplicit false
set_option relaxedAutoImplicit false

namespace GameRelay

open Json

/-- The object that asks for a seat in the room under a code. -/
def Seat.request (seat : Seat) (key : CodeKey) (code : String) : Value :=
  .object [("type", .string seat.requestType), (key.name, .string code)]

/-- What the text of a message, read back, has as its room code. -/
def Message.codeRead? (m : Message) : Option Value :=
  (Value.read? Frame.limits m.wire.toList).bind (·.field? CodeKey.camel.name)

private theorem Message.codeRead?_roomCreated (code : String) :
    (Message.roomCreated code).codeRead? = some (.string code) := by
  have fits : (Message.roomCreated code).Fits := trivial
  rw [codeRead?, read?_wire fits]
  rfl

private theorem Message.codeRead?_seated (seat : Seat) (code : String) :
    (Message.seated seat code).codeRead? = some (.string code) := by
  have fits : (Message.seated seat code).Fits := trivial
  rw [codeRead?, read?_wire fits]
  rfl

private theorem Seat.readable_request (seat : Seat) (key : CodeKey) (code : String) :
    (seat.request key code).Readable Frame.limits 0 := by
  have other : "type" ≠ key.name := by cases key <;> decide
  refine Message.readable_envelope (by simp [other]) ?_
  simp [Message.readable_text]

private theorem Frame.value?_of_text? {f : Frame} {v : Value} (written : f.text? = some v.text)
    (readable : v.Readable Frame.limits 0) : f.value? = some v := by
  rw [Frame.value?, written, Option.bind_some, Value.text, String.toList_ofList]
  exact Value.read?_chars (by decide) readable

private theorem Request.ofValue_request (seat : Seat) (key : CodeKey) (code : String) :
    Request.ofValue (seat.request key code) = .ok (.seat seat code) := by
  have spelled : Request.ofSeat seat [("type", .string seat.requestType), (key.name, .string code)]
      = .ok (.seat seat code) := by
    cases key <;> rfl
  cases seat <;> exact spelled

namespace Relay

private theorem asked_of_request (r : Relay) (p : Handle) {f : Frame} {seat : Seat} {key : CodeKey}
    {code : String} (written : f.text? = some (seat.request key code).text) :
    r.asked (.frame p f) = some (.seat seat p (some code)) := by
  have value := Frame.value?_of_text? written (seat.readable_request key code)
  have request : Request.ofFrame f = .ok (.seat seat code) := by
    rw [Request.ofFrame, value]
    exact Request.ofValue_request seat key code
  rw [asked, ask, request]

/-- A message comes into an outbox, and its text is read back with a room code. -/
structure Tells (r next : Relay) (q : Handle) (m : Message) (code : String) : Prop where
  queued : (next.peer q).outbox = (r.peer q).outbox.push (.message m)
  read : m.codeRead? = some (.string code)

theorem outbox_offered_of_same {c d : Connection} (m : Message) (isOpen : d.isOpen)
    (same : d.outbox = c.outbox) : (d.offered m).outbox = c.outbox.push (.message m) := by
  rw [outbox_of_offered isOpen, same]

theorem after_host {r : Relay} (filed : r.Filed) {h : Handle} {code : String}
    (role : (r.peer h).role = .unassigned) (found : r.codeSearch.outcome = .found code) :
    r.after (.host h) = r.searched.opened h code := by
  have effect : r.Effect (some (.host h)) _ := effect_after filed (.host h)
  generalize r.after (.host h) = next at effect ⊢
  cases effect with
  | rejectedHost _ assigned => exact absurd role assigned
  | searchedInVain _ _ vain => exact absurd found (vain code)
  | opened _ other _ same =>
    cases found.symm.trans same
    rfl

private theorem tells_of_host {r : Relay} (filed : r.Filed) {h : Handle} {code : String}
    (role : (r.peer h).role = .unassigned) (isOpen : (r.peer h).isOpen)
    (found : r.codeSearch.outcome = .found code) :
    r.Tells (r.after (.host h)) h (.roomCreated code) code := by
  refine ⟨?_, Message.codeRead?_roomCreated code⟩
  rw [after_host filed role found, peer_opened, if_pos rfl]
  exact outbox_offered_of_same _ isOpen rfl

private theorem tells_of_seat {r : Relay} (settled : r.Settled) {call : Call} {seat : Seat}
    {p : Handle}
    {code : String} {room : Room} (asks : r.asked call = some (.seat seat p (some code)))
    (role : (r.peer p).role = .unassigned) (isOpen : (r.peer p).isOpen)
    (live : Table.find? r.rooms code = some room) :
    r.Tells (r.after call) p (.seated seat code) code := by
  have ne : room.host ≠ p := by
    rintro rfl
    exact settled.not_mem_of_unassigned live role List.mem_cons_self
  refine ⟨?_, Message.codeRead?_seated seat code⟩
  rw [after_seat settled.filed asks role live, peer_seated r seat ne, if_pos rfl,
    settled.filed code room live]
  exact outbox_offered_of_same _ isOpen rfl

/-- A room that a host opened is live under no other code than the one it was opened under. -/
private theorem code_of_hosted {r : Relay} (settled : r.Settled) {calls : List Call}
    (proper : r.Proper calls) {h : Handle} {code other : String}
    (own : (r.peer h).standing = (.host, some code)) {room : Room}
    (live : Table.find? (r.afterAll calls).rooms other = some room) (host : room.host = h) :
    other = code := by
  have assigned : (r.peer h).role ≠ .unassigned := by
    intro role
    exact nomatch role.symm.trans (congrArg Prod.fst own)
  have named := ((settled_afterAll settled proper).fits live).code_of_mem List.mem_cons_self
  rw [host] at named
  have before := (keeps_afterAll settled proper assigned).room other named
  exact Option.some.inj (before.symm.trans (congrArg Prod.snd own))

/-- Whoever has no role yet and sends the text of a request for a seat under a code comes to the end
of the list of that seat in a room, and is told the code if it is open. -/
def LeadsTo (s : Relay) (code : String) (room : Room) : Prop :=
  ∀ (seat : Seat) (key : CodeKey) (p : Handle) (f : Frame), (s.peer p).role = .unassigned →
    f.text? = some (seat.request key code).text →
    Table.find? (s.after (.frame p f)).rooms code = some (room.admitted seat p) ∧
      ((s.peer p).isOpen → s.Tells (s.after (.frame p f)) p (.seated seat code) code)

private theorem leadsTo_of_live {s : Relay} (settled : s.Settled) {code : String} {room : Room}
    (live : Table.find? s.rooms code = some room) : s.LeadsTo code room := by
  intro seat key p f role written
  have asks := s.asked_of_request p written
  refine ⟨find?_after_seat settled.filed asks role live, ?_⟩
  intro isOpen
  exact tells_of_seat settled asks role isOpen live

/-- Whatever calls are made before and after, and whatever the code is made of: an open connection
that opens a room is told its code, and as long as the room is live the code leads to it. -/
theorem invitation_afterAll (codes : CodeSource) (calls : List Call) (h : Handle)
    (later : List Call) (proper : (initial codes).Proper (calls ++ .host h :: later))
    {code : String} :
    let r := (initial codes).afterAll calls
    let s := (r.after (.host h)).afterAll later
    (r.peer h).role = .unassigned → r.codeSearch.outcome = .found code →
      Table.find? (r.after (.host h)).rooms code = some (.new code h) ∧
      ((r.peer h).isOpen → r.Tells (r.after (.host h)) h (.roomCreated code) code) ∧
      ∀ other room, Table.find? s.rooms other = some room → room.host = h →
        other = code ∧ s.LeadsTo code room := by
  intro r s role found
  obtain ⟨earlier, admissible, rest⟩ := (proper_append _ _ _).mp proper
  have settled : r.Settled := settled_afterAll (settled_initial codes) earlier
  have next := settled_after settled admissible
  have opens := after_host settled.filed role found
  have own : ((r.after (.host h)).peer h).standing = (.host, some code) := by
    rw [opens, peer_opened, if_pos rfl]
    exact Connection.standing_offered _ _
  refine ⟨?_, fun isOpen => tells_of_host settled.filed role isOpen found, ?_⟩
  · rw [opens, rooms_opened]
    exact Table.find?_put_self _ code _
  · intro other room live host
    obtain rfl := code_of_hosted next rest own live host
    exact ⟨rfl, leadsTo_of_live (settled_afterAll next rest) live⟩

def lobby : List Call := [.arrive 0 "h" 4, .arrive 1 "p" 4, .arrive 2 "s" 4]

/-- A code with characters that are escaped, found after one that is taken. -/
theorem invitation_in_lobby :
    let codes : CodeSource := .listed ["a", "a", "\"\\\né😀"]
    let code := "\"\\\né😀"
    let calls : List Call := .arrive 3 "k" 4 :: .host 3 :: lobby
    let r := (initial codes).afterAll calls
    let s := (r.after (.host 0)).afterAll [.seat .player 1 (some code), .disconnect 3]
    let f : Frame := .text
      "\x7b\"type\":\"spectate\",\"room_code\":\"\\\"\\\\\\né😀\"\x7d"
    r.Tells (r.after (.host 0)) 0 (.roomCreated code) code ∧
      Table.find? (s.after (.frame 2 f)).rooms code = some ⟨code, 0, [1], [2]⟩ ∧
      s.Tells (s.after (.frame 2 f)) 2 (.seated .spectator code) code := by
  intro codes code calls r s f
  have proper : (initial codes).Proper
      (calls ++ .host 0 :: [.seat .player 1 (some code), .disconnect 3]) := by decide +kernel
  obtain ⟨-, tells, leads⟩ := invitation_afterAll codes calls 0 _ proper (by decide +kernel)
    (show r.codeSearch.outcome = .found code by decide +kernel)
  have live : Table.find? s.rooms code = some ⟨code, 0, [1], []⟩ := by decide +kernel
  have written : f.text? = some (Seat.request .spectator .snake code).text := by decide +kernel
  obtain ⟨seated, told⟩ :=
    (leads code _ live rfl).2 .spectator .snake 2 f (by decide +kernel) written
  exact ⟨tells (by decide +kernel), seated, told (by decide +kernel)⟩

end Relay

end GameRelay
