import GameRelay.Proofs.Json.Bytes
import GameRelay.Proofs.Relay.Departures
import GameRelay.Proofs.Relay.Journal

/-!
# Texts and bytes

A client may send a text as such or as the bytes that write it. Either way the relay does the same:
the request, the answers, the rooms and everything that waits are the same, and so is every report
but the one of a frame that is no request, which quotes the frame as it came. A value is read from
bytes in one go from the first to the last; bytes that write no text are no request, wherever they
go wrong.
-/

set_option autoImplicit false
set_option relaxedAutoImplicit false

namespace GameRelay

open Json

namespace Frame

theorem text?_eq_some_iff {f : Frame} {t : String} :
    f.text? = some t ↔ f = .text t ∨ f = .binary t.toUTF8 := by
  cases f with
  | text s => simp [text?]
  | binary bytes =>
    have form : String.fromUTF8? bytes = some t ↔ bytes = t.toUTF8 := by
      rw [Text.fromUTF8?_eq_some_iff, Text.encodes_toList_iff, String.toUTF8, eq_comm]
    simpa [text?] using form

/-- Two frames that have the same text, or both none. -/
def SameText (f g : Frame) : Prop := f.text? = g.text?

theorem sameText_binary (t : String) : (Frame.text t).SameText (.binary t.toUTF8) :=
  (text?_eq_some_iff.mpr (.inr rfl)).symm

theorem SameText.ofFrame {f g : Frame} (same : f.SameText g) :
    Request.ofFrame f = Request.ofFrame g := by
  rw [Request.ofFrame, Request.ofFrame, value?, value?, same]

end Frame

/-- Some bytes write a value, read one after the other. -/
def Json.Value.ReadFrom (limits : Limits) (bytes : List UInt8) (v : Value) : Prop :=
  ∃ ts, Tokenizes limits bytes ts ∧ Value.ofTokens? limits ts = some v

/-- To take the text of some bytes and read a value from it is to read it from the bytes. -/
theorem Frame.value?_binary_iff {bytes : ByteArray} {v : Value} :
    (Frame.binary bytes).value? = some v ↔ v.ReadFrom Frame.limits bytes.toList := by
  simp only [value?, text?, Value.ReadFrom, Option.bind_eq_some_iff, tokenizes_iff,
    Text.fromUTF8?_eq_some_iff, Value.read?]
  constructor
  · rintro ⟨s, encodes, ts, tokens, read⟩
    exact ⟨ts, ⟨s.toList, encodes, tokens⟩, read⟩
  · rintro ⟨ts, ⟨cs, encodes, tokens⟩, read⟩
    refine ⟨String.ofList cs, ?_, ts, ?_, read⟩
    · rwa [String.toList_ofList]
    · rwa [String.toList_ofList]

private theorem Request.ofFrame_of_not_utf8 {bytes : ByteArray}
    (broken : ¬Text.IsUtf8 bytes.toList) : Request.ofFrame (.binary bytes) = .error .notJson := by
  rw [ofFrame, Frame.value?, Frame.text?, Text.fromUTF8?_eq_none_iff.mpr broken]
  rfl

/-- Two calls are the same, or frames of one client with the same text. -/
inductive Call.Restates : Call → Call → Prop
  | same (call : Call) : Restates call call
  | frame (h : Handle) {f g : Frame} (same : f.SameText g) : Restates (.frame h f) (.frame h g)

/-- Two reports are the same, or about frames of one client with the same text. -/
inductive Event.Restates : Event → Event → Prop
  | same (e : Event) : Restates e e
  | frame (id : String) {f g : Frame} (same : f.SameText g) :
    Restates (.malformedFrame id f) (.malformedFrame id g)

namespace Relay

variable {r s : Relay} {h : Handle} {f g : Frame}

/-- Two relays are in the same state, but for the frames that their reports quote. -/
structure Restates (r s : Relay) : Prop where
  rest : r.OnlyReports s
  journal : List.Forall₂ Event.Restates r.journal s.journal

theorem restates_refl (r : Relay) : r.Restates r where
  rest := ⟨rfl, rfl, rfl⟩
  journal := List.forall₂_same.mpr fun e _ => .same e

private theorem ask_of_sameText (same : f.SameText g) : r.ask h f = r.ask h g := by
  rw [ask, ask, same.ofFrame]

private theorem restates_after_same (r : Relay) {call other : Call}
    (restates : call.Restates other) : (r.after call).Restates (r.after other) := by
  cases restates with
  | same call => exact restates_refl _
  | @frame h f g same =>
    rw [after_frame, after_frame, ask_of_sameText same]
    cases r.ask h g with
    | some plain => exact restates_refl _
    | none =>
      exact ⟨⟨rfl, rfl, rfl⟩, .cons (.frame (r.idOf h) same) (restates_refl r).journal⟩

theorem Restates.recalling {old later : List Event} (alike : r.Restates s)
    (restates : List.Forall₂ Event.Restates old later) :
    (r.recalling old).Restates (s.recalling later) where
  rest := alike.rest
  journal := List.rel_append alike.journal restates

theorem Restates.after {call other : Call} (alike : r.Restates s) (restates : call.Restates other) :
    (r.after call).Restates (s.after other) := by
  have same : r.OnlyReports r := ⟨rfl, rfl, rfl⟩
  rw [same.after_eq, alike.rest.after_eq]
  exact (restates_after_same r.quiet restates).recalling alike.journal

theorem Restates.afterAll {calls others : List Call} (alike : r.Restates s)
    (restates : List.Forall₂ Call.Restates calls others) :
    (r.afterAll calls).Restates (s.afterAll others) := by
  induction restates generalizing r s with
  | nil => exact alike
  | cons first _ ih => exact ih (alike.after first)

/-- What one frame does in a relay, another one does too: they are the same request, or rejected for
the same reason and reported, each as it came. -/
structure Agree (r : Relay) (h : Handle) (f g : Frame) : Prop where
  request : Request.ofFrame f = Request.ofFrame g
  accepted : ∀ request, Request.ofFrame f = .ok request → (handle h f).run r = (handle h g).run r
  rejected : ∀ why, Request.ofFrame f = .error why →
    (handle h f).run r = .ok () (r.noted (.malformedFrame (r.idOf h) f)) ∧
      (handle h g).run r = .ok () (r.noted (.malformedFrame (r.idOf h) g))

theorem run_handle_of_error {why : Rejection} (r : Relay) (h : Handle)
    (rejected : Request.ofFrame f = .error why) :
    (handle h f).run r = .ok () (r.noted (.malformedFrame (r.idOf h) f)) := by
  rw [handle, rejected]
  rfl

private theorem agree_of_sameText (r : Relay) (h : Handle) (same : f.SameText g) :
    r.Agree h f g where
  request := same.ofFrame
  accepted request asks := by rw [handle, handle, asks, ← same.ofFrame, asks]
  rejected why rejected :=
    ⟨run_handle_of_error r h rejected, run_handle_of_error r h (same.ofFrame ▸ rejected)⟩

/-- A text as such and the bytes that write it agree everywhere, and a run in which frames come in
either form ends in the same state. A value is read from the bytes one after the other. Bytes that
go wrong anywhere are rejected, which is reported and changes nothing else. -/
theorem agree_text_binary (r : Relay) (h : Handle) (t : String) (bytes : ByteArray) :
    r.Agree h (.text t) (.binary t.toUTF8) ∧
      (∀ calls others, List.Forall₂ Call.Restates calls others →
        (r.afterAll calls).Restates (r.afterAll others)) ∧
      (∀ v, (Frame.binary bytes).value? = some v ↔ v.ReadFrom Frame.limits bytes.toList) ∧
      (¬Text.IsUtf8 bytes.toList →
        Request.ofFrame (.binary bytes) = .error .notJson ∧
          (handle h (.binary bytes)).run r =
            .ok () (r.noted (.malformedFrame (r.idOf h) (.binary bytes)))) := by
  refine ⟨agree_of_sameText r h (Frame.sameText_binary t), ?_, ?_, ?_⟩
  · intro calls others restates
    exact (restates_refl r).afterAll restates
  · intro v
    exact Frame.value?_binary_iff
  · intro broken
    have rejected := Request.ofFrame_of_not_utf8 broken
    exact ⟨rejected, run_handle_of_error r h rejected⟩

def greeted : Relay := (initial (.listed ["a"])).after (.arrive 0 "h" 4)

/-- A request to host with a member that is not read. -/
def adorned : String := "\x7b\"type\":\"host\",\"é\":\"日\"\x7d"

/-- The request to host with a slash in two bytes where one is enough, in a member that is not
read. -/
def overlong : ByteArray :=
  "\x7b\"type\":\"host\",\"x\":\"".toUTF8 ++ ⟨#[0xc0, 0xaf]⟩ ++ "\"\x7d".toUTF8

/-- In either form it is the request to host; with the two bytes it is none. -/
theorem agree_of_adorned :
    ¬Text.IsUtf8 overlong.toList ∧
      greeted.Agree 0 (.text adorned) (.binary adorned.toUTF8) ∧
      Request.ofFrame (.text adorned) = .ok .host ∧
      (greeted.afterAll [.frame 0 (.text adorned), .frame 0 (.binary overlong)]).Restates
        (greeted.afterAll [.frame 0 (.binary adorned.toUTF8), .frame 0 (.binary overlong)]) ∧
      (handle 0 (.binary overlong)).run greeted =
        .ok () (greeted.noted (.malformedFrame "h" (.binary overlong))) := by
  have broken : ¬Text.IsUtf8 overlong.toList :=
    Text.fromUTF8?_eq_none_iff.mp (by decide +kernel)
  obtain ⟨agree, runs, -, ignored⟩ := agree_text_binary greeted 0 adorned overlong
  refine ⟨broken, agree, by decide +kernel, ?_, (ignored broken).2⟩
  exact runs _ _ (.cons (.frame 0 (Frame.sameText_binary adorned)) (.cons (.same _) .nil))

end Relay

end GameRelay
