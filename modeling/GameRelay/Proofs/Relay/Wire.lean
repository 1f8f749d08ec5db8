import GameRelay.Proofs.Json.Standard
import GameRelay.Proofs.Relay.Payloads
import GameRelay.Proofs.Relay.Traffic

/-!
# What goes over the wire

All that the relay writes of its own accord is standard JSON, so what it sends is standard as far as
payloads are. A frame may bring numbers that are not finite, as a bare word or as a numeral out of
range, and the one message it is relayed in, to whomever it goes, is then no standard text.
-/

set_option autoImplicit false
set_option relaxedAutoImplicit false

namespace GameRelay

open Json

/-- What a message holds that the relay did not write. -/
def Message.payload? : Message → Option Value
  | .input _ payload | .state payload => some payload
  | .plain fields => some (.object fields)
  | _ => none

theorem Message.finite_toValue_iff (m : Message) (key : CodeKey) :
    (m.toValue key).Finite ↔ ∀ payload ∈ m.payload?, payload.Finite := by
  cases m <;> simp [toValue, payload?]

/-- A message is standard exactly when the numbers in its payload are finite. -/
theorem Message.isStandard_wire_iff (m : Message) :
    IsStandard m.wire.toList ↔ ∀ payload ∈ m.payload?, payload.Finite := by
  rw [wire, Value.text, String.toList_ofList, isStandard_chars_iff]
  exact m.finite_toValue_iff .camel

def Call.payload? : Call → Option Value
  | .input _ payload => some payload
  | _ => none

namespace Relay

def payload? (r : Relay) (h : Handle) (f : Frame) : Option Value :=
  (r.ask h f).bind Call.payload?

/-- A message that a call brings to a connection has the payload of the call, or both have none. -/
private theorem payload?_of_turn {r : Relay} {q : Handle} {asked : Option Call} {c : Connection}
    (turn : r.Turn q asked c) {m : Message} (came : .message m ∈ (r.peer q).gained c) :
    m.payload? = asked.bind Call.payload? := by
  have one {d : Connection} {sent : Message}
      (came : .message m ∈ (r.peer q).gained (d.offered sent))
      (same : d.outbox = (r.peer q).outbox) : m = sent := by
    rw [Connection.gained_offered sent same] at came
    split at came
    · simpa using came
    · cases came
  have shut {d : Connection} (same : d.outbox = (r.peer q).outbox) :
      .message m ∉ (r.peer q).gained d.closed := by
    rw [Connection.gained_closed same]
    split <;> simp
  cases turn with
  | idle =>
    rw [Connection.gained_self] at came
    cases came
  | released h room role own live member => exact absurd came (shut rfl)
  | closed => exact absurd came (shut rfl)
  | detached =>
    rw [Connection.gained, Outbox.gained_self] at came
    cases came
  | written socket held =>
    rw [Connection.gained_written] at came
    cases came
  | _ =>
    rw [one came rfl]
    rfl

private theorem payload?_of_came {r : Relay} (settled : r.Settled) {h : Handle} {f : Frame}
    (admissible : r.Admissible (.frame h f)) {q : Handle} {m : Message}
    (came : .message m ∈ (r.peer q).gained ((r.after (.frame h f)).peer q)) :
    m.payload? = r.payload? h f := by
  by_cases known : q ∈ r.known
  · exact payload?_of_turn (turn_after settled admissible known) came
  · rw [gained_of_not_known settled admissible known] at came
    cases came

/-- Whatever calls are made before: a message that a frame brings to any connection is standard
exactly when the numbers in the payload that the frame wants to have relayed are finite. -/
theorem isStandard_wire_of_frame (codes : CodeSource) (calls : List Call) (h : Handle) (f : Frame)
    (proper : (initial codes).Proper (calls ++ [.frame h f])) (q : Handle) (m : Message) :
    let r := (initial codes).afterAll calls
    .message m ∈ (r.peer q).gained ((r.after (.frame h f)).peer q) →
      (IsStandard m.wire.toList ↔ ∀ payload ∈ r.payload? h f, payload.Finite) := by
  intro r came
  obtain ⟨earlier, admissible, -⟩ := (proper_append _ _ _).mp proper
  have settled : r.Settled := settled_afterAll (settled_initial codes) earlier
  rw [m.isStandard_wire_iff, payload?_of_came settled admissible came]

def trio : List Call :=
  [.arrive 0 "h" 4, .arrive 1 "p" 4, .arrive 2 "s" 4, .host 0, .seat .player 1 (some "a"),
    .seat .spectator 2 (some "a")]

/-- A state with finite numbers of every kind reaches the spectator in a standard text. -/
theorem isStandard_wire_of_state_in_trio :
    let r := (initial (.listed ["a"])).afterAll trio
    let f : Frame := .text "\x7b\"type\":\"input\",\"state\":[1E3,-0.0,-7]\x7d"
    let m : Message :=
      .state (.array [.float (.ofScientific false 1 3), .float (.zero true), .int (-7)])
    .message m ∈ (r.peer 2).gained ((r.after (.frame 0 f)).peer 2) ∧ IsStandard m.wire.toList := by
  intro r f m
  have proper : (initial (.listed ["a"])).Proper (trio ++ [.frame 0 f]) := by decide +kernel
  have came : .message m ∈ (r.peer 2).gained ((r.after (.frame 0 f)).peer 2) := by decide +kernel
  have brought : r.payload? 0 f =
      some (.array [.float (.ofScientific false 1 3), .float (.zero true), .int (-7)]) := by
    decide +kernel
  refine ⟨came, (isStandard_wire_of_frame _ trio 0 f proper 2 m came).mpr ?_⟩
  rw [brought]
  rintro payload ⟨⟩
  refine .array (List.forall_mem_cons.mpr ⟨.float (by decide +kernel), ?_⟩)
  exact List.forall_mem_cons.mpr ⟨.float rfl, List.forall_mem_singleton.mpr (.int (-7))⟩

/-- A player may bring a number that is none, and it reaches the host as it is. -/
theorem not_isStandard_wire_of_frame :
    ¬∀ (codes : CodeSource) (calls : List Call) (h : Handle) (f : Frame),
      (initial codes).Proper (calls ++ [.frame h f]) → ∀ (q : Handle) (m : Message),
      let r := (initial codes).afterAll calls
      .message m ∈ (r.peer q).gained ((r.after (.frame h f)).peer q) →
        IsStandard m.wire.toList := by
  intro always
  have standard := always (.listed ["a"]) trio 1
    (.text "\x7b\"type\":\"input\",\"input\":NaN\x7d") (by decide +kernel) 0
    (.input "p" (.float .nan)) (by decide +kernel)
  rw [Message.isStandard_wire_iff] at standard
  exact nomatch standard (.float .nan) rfl

end Relay

end GameRelay
