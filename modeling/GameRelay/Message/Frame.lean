import GameRelay.Json.Reader

/-!
# Frames

What a client sends in one piece: a text, or bytes that are the UTF-8 form of one. A frame is
read as one JSON value with at most 200 open brackets around any value in it and at most 4300
digits in the whole part of a number.
-/

set_option autoImplicit false
set_option relaxedAutoImplicit false

namespace GameRelay

open Json

inductive Frame
  | text (s : String)
  | binary (bytes : ByteArray)

namespace Frame

/-- Texts are compared as texts and bytes byte by byte. -/
instance : DecidableEq Frame
  | .text s, .text t => decidable_of_decidable_of_iff (p := s = t) (by simp)
  | .binary a, .binary b =>
      decidable_of_decidable_of_iff (p := a.data = b.data) (by simp [ByteArray.ext_iff])
  | .text _, .binary _ | .binary _, .text _ => isFalse nofun

/-- How much a frame may hold. -/
def limits : Limits := ⟨200, 4300⟩

/-- The text of a frame; bytes that are not UTF-8 have none. -/
def text? : Frame → Option String
  | .text s => some s
  | .binary bytes => String.fromUTF8? bytes

def value? (frame : Frame) : Option Value :=
  frame.text?.bind fun s => Value.read? limits s.toList

end Frame

end GameRelay
