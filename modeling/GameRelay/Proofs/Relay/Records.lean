import GameRelay.Proofs.Relay.Journal
import GameRelay.Proofs.Relay.Provenance
import GameRelay.Proofs.Text.Quoted
import GameRelay.Proofs.Text.Utf8

/-!
# Records are single lines

The text of a record is fixed, but for names that the server has made, numbers, and what stands
between quotes. None of these breaks a line, so a client can put nothing into a record that a reader
takes for another one; and what it sent can be told from how it is quoted. The report of a malformed
frame is meant up to the end of the quoted frame, without the account of the validator after it.
-/

set_option autoImplicit false
set_option relaxedAutoImplicit false

namespace GameRelay

open Text

private theorem areShown_of_mem_split {ns : List Nat} {cs piece : List Char} (shown : AreShown cs)
    (member : piece ∈ ConnectionId.split ns cs) : AreShown piece := by
  induction ns generalizing cs with
  | nil => cases member
  | cons n rest ih =>
    rcases List.mem_cons.mp member with rfl | later
    · exact fun c within => shown c (List.mem_of_mem_take within)
    · exact ih (fun c within => shown c (List.mem_of_mem_drop within)) later

private theorem isLine_ofBits (bits : Nat) : IsLine (ConnectionId.ofBits bits) := by
  have dash : AreShown ['-'] := areShown_nil.cons (isPrintable_of_isPlain (by decide))
  exact isLine_ofList (areShown_intercalate dash
    fun piece => areShown_of_mem_split (areShown_hexDigits 32 _))

private theorem isLine_of_shaped {n : Nat} {code : String} (shaped : RoomCode.Shaped n code) :
    IsLine code := by
  have plain : RoomCode.alphabet.all isPlain := by decide
  intro c member
  exact isPrintable_of_isPlain (List.all_eq_true.mp plain c (shaped.2 c member))

private theorem Coined.isLine {s : String} (coined : Coined s) : IsLine s := by
  rcases coined with ⟨bits, rfl⟩ | ⟨n, shaped⟩
  · exact isLine_ofBits bits
  · exact isLine_of_shaped shaped

private theorem SocketFault.isLine_describe (fault : SocketFault) : IsLine fault.describe := by
  cases fault with
  | peerGone => exact isLine_of_isPlain (by decide)
  | notReady text => exact ((isLine_quote text).led (by decide)).ended (by decide)
  | reset text => exact ((isLine_quote text).led (by decide)).ended (by decide)
  | unexpected text => exact ((isLine_quote text).led (by decide)).ended (by decide)

theorem Frame.isLine_quote (f : Frame) : IsLine f.quote := by
  cases f with
  | text s => exact Text.isLine_quote s
  | binary bytes => exact isLine_quoteBytes _

private theorem isLine_quoteRequested (requested : Option String) :
    IsLine (quoteRequested requested) := by
  cases requested with
  | none => exact isLine_of_isPlain (by decide)
  | some code => exact Text.isLine_quote code

private theorem isLine_roomName {room : Option String} (lines : ∀ code ∈ room, IsLine code) :
    IsLine (roomName room) := by
  cases room with
  | none => exact isLine_of_isPlain (by decide)
  | some code => exact lines code rfl

private theorem Role.isLine_name (role : Role) : IsLine role.name := by
  cases role <;> exact isLine_of_isPlain (by decide)

private theorem Role.isLine_title (role : Role) : IsLine role.title := by
  cases role <;> exact isLine_of_isPlain (by decide)

namespace Event

theorem isLine_text (e : Event) (lines : ∀ s ∈ e.names, IsLine s) : IsLine e.text := by
  have one {s : String} (shown : e.names = [s]) : IsLine s := lines s (by simp [shown])
  have two {s t : String} (shown : e.names = [s, t]) : IsLine s ∧ IsLine t :=
    ⟨lines s (by simp [shown]), lines t (by simp [shown])⟩
  cases e with
  | codeCollision code => exact ((one rfl).led (by decide)).ended (by decide)
  | malformedFrame id frame =>
    exact ((one rfl).led (by decide)).joined frame.isLine_quote (by decide)
  | requestRejected id role room =>
    obtain ⟨id, codes⟩ := List.forall_mem_cons.mp lines
    have room := isLine_roomName fun code own => codes code (Option.mem_toList.mpr own)
    exact (((id.led (by decide)).joined role.isLine_name (by decide)).joined room
      (by decide)).ended (by decide)
  | roomCreated code id =>
    obtain ⟨code, id⟩ := two rfl
    exact (code.led (by decide)).joined id (by decide)
  | seatTaken seat id code =>
    obtain ⟨id, code⟩ := two rfl
    cases seat with
    | player => exact (id.led (by decide)).joined code (by decide)
    | spectator => exact (id.led (by decide)).joined code (by decide)
  | unknownRoom id requested =>
    exact ((one rfl).led (by decide)).joined (isLine_quoteRequested requested) (by decide)
  | roomDeleted code => exact ((one rfl).led (by decide)).ended (by decide)
  | inputIgnored id => exact ((one rfl).led (by decide)).ended (by decide)
  | spectatorInput id code =>
    obtain ⟨id, code⟩ := two rfl
    exact ((id.led (by decide)).joined code (by decide)).ended (by decide)
  | memberLeft role id code =>
    obtain ⟨id, code⟩ := two rfl
    exact (role.isLine_title.joined id (by decide)).joined code (by decide)
  | replyDropped id => exact ((one rfl).led (by decide)).ended (by decide)
  | hostSkipped code id =>
    obtain ⟨code, id⟩ := two rfl
    exact ((code.led (by decide)).joined id (by decide)).ended (by decide)
  | memberSkipped code id =>
    obtain ⟨code, id⟩ := two rfl
    exact (code.led (by decide)).joined id (by decide)
  | itemDropped id total =>
    exact (((one rfl).led (by decide)).joined (isLine_toString total) (by decide)).ended
      (by decide)
  | writerStopped id fault =>
    exact ((one rfl).led (by decide)).joined fault.isLine_describe (by decide)
  | clientConnected id => exact ((one rfl).led (by decide)).ended (by decide)
  | clientDisconnected id => exact ((one rfl).led (by decide)).ended (by decide)

theorem Genuine.isLine_text {e : Event} (genuine : e.Genuine) : IsLine e.text :=
  e.isLine_text fun s shown => (genuine s shown).isLine

private theorem isLine_levelName (e : Event) : IsLine e.level.name := by
  have plain : [Log.Level.warning, .debug, .info].all fun level =>
      level.name.toList.all isPlain := by decide
  refine isLine_of_isPlain (List.all_eq_true.mp plain e.level ?_)
  cases e <;> simp [level]

private theorem isLine_component (e : Event) :
    IsLine (if e.component.isEmpty then "root" else e.component) := by
  have plain : ["netplay_relay.room", "netplay_relay.connection",
      "netplay_relay.routers.websockets", "netplay_relay.registry"].all fun component =>
        (if component.isEmpty then "root" else component).toList.all isPlain := by decide
  refine isLine_of_isPlain (List.all_eq_true.mp plain e.component ?_)
  cases e <;> simp [component]

/-- The record of an event is one line: nothing before its end ends a line. -/
private theorem Genuine.line_record {e : Event} (genuine : e.Genuine) :
    ∃ body, e.record.line = body ++ "\n" ∧ IsLine body := by
  have blanks (n : Nat) : IsLine (String.ofList (List.replicate n ' ')) := by
    refine isLine_ofList ?_
    intro c member
    rw [List.eq_of_mem_replicate member]
    exact isPrintable_of_isPlain (by decide)
  have level : IsLine (Log.Record.padRight 8 e.level.name) := e.isLine_levelName.append (blanks _)
  exact ⟨_, rfl, (level.joined e.isLine_component (by decide)).joined genuine.isLine_text
    (by decide)⟩

end Event

/-- Two frames are never quoted alike. -/
theorem Frame.quote_injective : Function.Injective Frame.quote := by
  intro f g same
  cases f with
  | text s =>
    cases g with
    | text t => exact congrArg Frame.text (Text.quote_injective same)
    | binary bytes => exact absurd same (quote_ne_quoteBytes s bytes.toList)
  | binary bytes =>
    cases g with
    | text t => exact absurd same.symm (quote_ne_quoteBytes t bytes.toList)
    | binary others =>
      have data := quoteBytes_injective same
      rw [toList_eq_data, toList_eq_data] at data
      exact congrArg Frame.binary (ByteArray.ext (Array.toList_inj.mp data))

namespace Relay

theorem Genuine.reports {r : Relay} (genuine : r.Genuine) {call : Call} {e : Event}
    (reported : e ∈ r.reports call) (coins : call.Coins) : e.Genuine := by
  have after := (genuine.after coins).journal
  rw [journal_after] at after
  exact after e (List.mem_append_left _ reported)

/-- After any deeds, as long as ids come from random bits and codes from random sources, a frame
puts some reports in front of the journal. Each shows names that the server has made, and as a
record it is one line, up to the account of the validator that `Event.text` leaves out for a
malformed frame; so is what it quotes of the frame. Two codes or two frames are never quoted
alike. -/
theorem reports_of_frame (length : Int) (draws : List (Fin 36)) {deeds : List Deed}
    (coins : ∀ d ∈ deeds, d.Coins) (h : Handle) (f : Frame) :
    let r := (initial (.random length draws)).afterDeeds deeds
    (r.after (.frame h f)).journal = r.reports (.frame h f) ++ r.journal ∧
      (∀ e ∈ r.reports (.frame h f),
        e.Genuine ∧ IsLine e.text ∧ (∀ c ∈ lineBreaks, c ∉ e.text.toList) ∧
          ∃ body, e.record.line = body ++ "\n" ∧ IsLine body) ∧
      IsLine f.quote ∧
      (∀ g : Frame, f.quote = g.quote → f = g) ∧
      ∀ a b : String, quoteRequested (some a) = quoteRequested (some b) → a = b := by
  intro r
  have genuine : r.Genuine := (genuine_initial length draws).afterDeeds coins
  refine ⟨r.journal_after _, ?_, f.isLine_quote, fun g same => Frame.quote_injective same,
    fun a b same => Text.quote_injective same⟩
  intro e reported
  have event := genuine.reports reported trivial
  have line := event.isLine_text
  exact ⟨event, line, line.unbroken, event.line_record⟩

def doorway : List Deed :=
  ([.arrive 0 (ConnectionId.ofBits 1) 4, .arrive 1 (ConnectionId.ofBits 2) 4, .host 0] :
    List Call).map .call

/-- A request for a seat with a code that ends a line and goes on like a record. -/
def forgery : Frame :=
  .text "\x7b\"type\":\"join\",\"roomCode\":\"it's\\nRoom 0 deleted\"\x7d"

/-- The request is reported as one line that quotes the code. -/
theorem reports_of_forgery :
    let r := (initial (.random 1 [0])).afterDeeds doorway
    let e := Event.unknownRoom (ConnectionId.ofBits 2) (some "it's\nRoom 0 deleted")
    (∀ d ∈ doorway, d.Coins) ∧ r.reports (.frame 1 forgery) = [e] ∧ IsLine e.text ∧
      e.text = "Connection 00000000-0000-4000-8000-000000000002 asked for unknown room " ++
        "\"it's\\nRoom 0 deleted\"" := by
  intro r e
  have coins : ∀ d ∈ doorway, d.Coins := by
    simp only [doorway, List.map_cons, List.map_nil, List.forall_mem_cons, Deed.Coins, Call.Coins]
    exact ⟨⟨1, rfl⟩, ⟨2, rfl⟩, trivial, nofun⟩
  have reports : r.reports (.frame 1 forgery) = [e] := by decide +kernel
  obtain ⟨-, lines, -⟩ := reports_of_frame 1 [0] coins 1 forgery
  exact ⟨coins, reports, (lines e (by rw [reports]; exact List.mem_singleton_self e)).2.1,
    by decide +kernel⟩

end Relay

end GameRelay
