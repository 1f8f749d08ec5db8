import GameRelay.Proofs.Json.Reader
import GameRelay.Proofs.Relay.Calls

/-!
# Payloads

A payload goes through the relay unread. Whatever value a frame brings, the message that carries
it on is written as a text that is read back, within the limits of a frame, as an object with that
same value: the envelope of a message opens no more brackets around a payload than a frame does.
-/

set_option autoImplicit false
set_option relaxedAutoImplicit false

namespace GameRelay

open Json

namespace Frame

def field? (f : Frame) (key : String) : Option Value := f.value?.bind (·.field? key)

private theorem readable_of_field? {f : Frame} {key : String} {v : Value}
    (found : f.field? key = some v) : v.Readable limits 1 := by
  obtain ⟨whole, value, found⟩ := Option.bind_eq_some_iff.mp found
  obtain ⟨s, -, read⟩ := Option.bind_eq_some_iff.mp value
  exact (Value.readable_of_read? read).of_field? found

end Frame

private theorem Request.fields_of_ofFields {fields : List (String × Value)}
    {move state : Option Value} (accepted : Request.ofFields fields = .ok (.input move state)) :
    move = Table.find? fields "input" ∧ state = Table.find? fields "state" := by
  have not_seat (seat : Seat) : Request.ofSeat seat fields ≠ .ok (.input move state) := by
    unfold Request.ofSeat
    split <;> simp
  unfold Request.ofFields at accepted
  split at accepted
  · cases accepted
  · split_ifs at accepted
    · cases accepted
    · exact absurd accepted (not_seat .player)
    · exact absurd accepted (not_seat .spectator)
    · cases accepted
      exact ⟨rfl, rfl⟩
  · cases accepted

private theorem Request.fields_of_ofFrame {f : Frame} {move state : Option Value}
    (accepted : Request.ofFrame f = .ok (.input move state)) :
    move = f.field? "input" ∧ state = f.field? "state" := by
  unfold Request.ofFrame at accepted
  split at accepted
  · rename_i v value
    cases v with
    | object fields =>
      have brings (key : String) : f.field? key = Table.find? fields key := by
        rw [Frame.field?, value]
        rfl
      rw [brings, brings]
      exact fields_of_ofFields accepted
    | _ => cases accepted
  · cases accepted

namespace Frame

theorem readable_getD (f : Frame) (key : String) {v : Value} (other : v.Readable limits 1) :
    ((f.field? key).getD v).Readable limits 1 := by
  cases found : f.field? key with
  | none => exact other
  | some w => exact readable_of_field? found

theorem readable_getD_null (f : Frame) (key : String) :
    ((f.field? key).getD .null).Readable limits 1 :=
  f.readable_getD key (.null (by decide))

end Frame

namespace Message

/-- Whether the payload of a message is within the limits of a frame. -/
def Fits : Message → Prop
  | .input _ payload | .state payload => payload.Readable Frame.limits 1
  | .plain fields => (Value.object fields).Readable Frame.limits 0
  | _ => True

theorem readable_envelope {fields : List (String × Value)} (apart : (Table.keys fields).Nodup)
    (readable : ∀ field ∈ fields, field.2.Readable Frame.limits 1) :
    (Value.object fields).Readable Frame.limits 0 :=
  .object (Nat.zero_le _) apart readable

theorem readable_text (s : String) : (Value.string s).Readable Frame.limits 1 :=
  .string (by decide) s

theorem readable_toValue {m : Message} (fits : m.Fits) (key : CodeKey) :
    (m.toValue key).Readable Frame.limits 0 := by
  have other : "type" ≠ key.name := by cases key <;> decide
  cases m with
  | roomCreated code => exact readable_envelope (by simp [other]) (by simp [readable_text])
  | seated seat code => exact readable_envelope (by simp [other]) (by simp [readable_text])
  | playerJoined id => exact readable_envelope (by simp) (by simp [readable_text])
  | error s => exact readable_envelope (by simp) (by simp [readable_text])
  | input id payload =>
    have payload_fits : payload.Readable Frame.limits 1 := fits
    exact readable_envelope (by simp) (by simp [readable_text, payload_fits])
  | state payload =>
    have payload_fits : payload.Readable Frame.limits 1 := fits
    exact readable_envelope (by simp) (by simp [readable_text, payload_fits])
  | plain fields => exact fits

/-- The text of a message is read back as its object. -/
theorem read?_wire {m : Message} (fits : m.Fits) :
    Value.read? Frame.limits m.wire.toList = some (m.toValue .camel) := by
  rw [wire, Value.text, String.toList_ofList]
  exact Value.read?_chars (by decide) (readable_toValue fits .camel)

end Message

namespace Relay

private theorem ask_of_ofFrame (r : Relay) (h : Handle) {f : Frame} {move state : Option Value}
    (accepted : Request.ofFrame f = .ok (.input move state)) :
    r.ask h f = some (.input h (if (r.peer h).role = .host
      then (f.field? "state").getD ((f.field? "input").getD .null)
      else (f.field? "input").getD .null)) := by
  obtain ⟨rfl, rfl⟩ := Request.fields_of_ofFrame accepted
  unfold ask
  rw [accepted]
  cases f.field? "state" <;> rfl

theorem outbox_of_offered {c : Connection} (isOpen : c.isOpen) (m : Message) :
    (c.offered m).outbox = c.outbox.push (.message m) := by
  rw [Connection.offered, if_pos isOpen]
  rfl

private theorem outbox_broadcasted (r : Relay) {room : Room} (m : Message) {k : Handle}
    (isOpen : (r.peer k).isOpen) :
    ((r.broadcasted room m).peer k).outbox =
      (List.replicate (room.members.count k) (.message m)).foldl Outbox.push (r.peer k).outbox := by
  unfold broadcasted
  induction room.members generalizing r with
  | nil => rfl
  | cons h rest ih =>
    have first := peer_offered r h k m (.memberSkipped room.code (r.idOf h))
    rw [List.foldl_cons]
    by_cases same : k = h
    · subst same
      rw [if_pos rfl] at first
      rw [ih _ (by rwa [first, Connection.isOpen_offered]), first, outbox_of_offered isOpen,
        List.count_cons_self, List.replicate_succ, List.foldl_cons]
    · rw [if_neg same] at first
      rw [ih _ (by rwa [first]), first, List.count_cons_of_ne (Ne.symm same)]

/-- A message whose text can be written and is read back as an object with these fields. A printer
gives up on integers of too many digits and on brackets too deep; a readable value has neither. -/
structure Carries (m : Message) (fields : List (String × Value)) : Prop where
  writable : (m.toValue .camel).Readable Frame.limits 0
  read : Value.read? Frame.limits m.wire.toList = some (.object fields)

theorem carries_of_fits {m : Message} (fits : m.Fits) {fields : List (String × Value)}
    (form : m.toValue .camel = .object fields) : Carries m fields :=
  ⟨Message.readable_toValue fits .camel, form ▸ Message.read?_wire fits⟩

/-- Payloads go through the relay as they are. An input that a player of a live room sends reaches
its open host as a message that is read back with the id of the player and the frame's input. An
input that a host sends reaches every open member as one that is read back with the frame's state
if the frame has one, otherwise with its input. What is not there counts as null. -/
theorem carries_of_frame (r : Relay) {h : Handle} {f : Frame} {move state : Option Value}
    (accepted : Request.ofFrame f = .ok (.input move state)) {room : Room}
    (live : r.room? (r.peer h).room = some room) (held : room.holds r.idOf h) :
    ((r.peer h).role = .player → (r.peer room.host).isOpen →
      ∃ m, ((r.after (.frame h f)).peer room.host).outbox =
          (r.peer room.host).outbox.push (.message m) ∧
        Carries m [("type", .string "input"), ("id", .string (r.idOf h)),
          ("input", (f.field? "input").getD .null)]) ∧
    ((r.peer h).role = .host → ∀ k ∈ room.members, (r.peer k).isOpen →
      ∃ m, ((r.after (.frame h f)).peer k).outbox =
          (List.replicate (room.members.count k) (.message m)).foldl Outbox.push (r.peer k).outbox ∧
        Carries m [("type", .string "state"),
          ("state", (f.field? "state").getD ((f.field? "input").getD .null))]) := by
  have asks : r.asked (.frame h f) = _ := r.ask_of_ofFrame h accepted
  -- which of the two payloads the frame asks for is settled by the role, as is the way it goes
  have next := (after_of_asked asks).trans (after_input r h _)
  rw [routed, live] at next
  simp only [held, if_true] at next
  constructor
  · intro role isOpen
    simp only [role, reduceCtorEq, if_false] at next
    have fits : (Message.input (r.idOf h) ((f.field? "input").getD .null)).Fits :=
      f.readable_getD_null "input"
    refine ⟨_, ?_, carries_of_fits fits rfl⟩
    rw [next, peer_offered, if_pos rfl]
    exact outbox_of_offered isOpen _
  · intro role k member isOpen
    simp only [role, if_true] at next
    have fits : (Message.state ((f.field? "state").getD ((f.field? "input").getD .null))).Fits :=
      f.readable_getD "state" (f.readable_getD_null "input")
    refine ⟨_, ?_, carries_of_fits fits rfl⟩
    rw [next]
    exact outbox_broadcasted r _ isOpen

def duo : Relay :=
  (initial (.listed ["a"])).afterAll
    [.arrive 0 "h" 2, .arrive 1 "p" 2, .host 0, .seat .player 1 (some "a")]

/-- An input with a state that is there but null. -/
def nullState : Frame :=
  .text "\x7b\"type\": \"input\", \"state\": null, \"input\": [10, \"\\u00e9\\n\"]\x7d"

/-- The player's frame reaches the host with its input, the host's reaches the player with its
null. -/
theorem carries_of_nullState_in_duo :
    let move : Value := .array [.int 10, .string "é\n"]
    Request.ofFrame nullState = .ok (.input (some move) (some .null)) ∧
      (∃ m, ((duo.after (.frame 1 nullState)).peer 0).outbox =
          (duo.peer 0).outbox.push (.message m) ∧
        Carries m [("type", .string "input"), ("id", .string "p"), ("input", move)]) ∧
      ∃ m, ((duo.after (.frame 0 nullState)).peer 1).outbox =
          (duo.peer 1).outbox.push (.message m) ∧
        Carries m [("type", .string "state"), ("state", .null)] := by
  intro move
  have accepted : Request.ofFrame nullState = .ok (.input (some move) (some .null)) := by
    decide +kernel
  have input : nullState.field? "input" = some move := by decide +kernel
  have state : nullState.field? "state" = some .null := by decide +kernel
  have id : duo.idOf 1 = "p" := by decide +kernel
  have live (h : Handle) (seated : h = 0 ∨ h = 1) :
      duo.room? (duo.peer h).room = some ⟨"a", 0, [1], []⟩ := by
    rcases seated with rfl | rfl <;> decide +kernel
  have player := (carries_of_frame duo accepted (live 1 (.inr rfl)) (by decide +kernel)).1
    (by decide +kernel) (by decide +kernel)
  have host := (carries_of_frame duo accepted (live 0 (.inl rfl)) (by decide +kernel)).2
    (by decide +kernel) 1 (by decide) (by decide +kernel)
  rw [input, id] at player
  rw [state] at host
  exact ⟨accepted, player, host⟩

end Relay

end GameRelay
