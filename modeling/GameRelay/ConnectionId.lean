import GameRelay.Text.Hex

/-!
# Ids of connections

The id of a connection is a random UUID: 122 random bits between fixed marks for its version and
its variant, written as hexadecimal digits in five groups.
-/

set_option autoImplicit false
set_option relaxedAutoImplicit false

namespace GameRelay.ConnectionId

def groups : List Nat := [8, 4, 4, 4, 12]

def split : List Nat → List Char → List (List Char)
  | [], _ => []
  | n :: rest, cs => cs.take n :: split rest (cs.drop n)

/-- The number of a random UUID: version 4, the common variant, and random bits elsewhere. -/
def number (bits : Nat) : Nat :=
  let low := bits % Nat.pow 2 62
  let middle := bits / Nat.pow 2 62 % Nat.pow 2 12
  let high := bits / Nat.pow 2 74 % Nat.pow 2 48
  high * Nat.pow 2 80 + 4 * Nat.pow 2 76 + middle * Nat.pow 2 64 + 2 * Nat.pow 2 62 + low

def ofBits (bits : Nat) : String :=
  String.ofList (['-'].intercalate (split groups (Text.hexDigits 32 (number bits))))

end GameRelay.ConnectionId
