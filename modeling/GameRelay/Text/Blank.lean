/-!
# Blank characters

The blanks that may stand around a number: the ASCII ones, and beyond ASCII the characters with
the Unicode property White_Space.
-/

set_option autoImplicit false
set_option relaxedAutoImplicit false

namespace GameRelay.Text

def blankRanges : List (Nat × Nat) :=
  [(0x9, 0xd), (0x20, 0x20), (0x85, 0x85), (0xa0, 0xa0), (0x1680, 0x1680), (0x2000, 0x200a),
   (0x2028, 0x2029), (0x202f, 0x202f), (0x205f, 0x205f), (0x3000, 0x3000)]

def isBlank (c : Char) : Bool :=
  blankRanges.any fun range => range.1 ≤ c.toNat && c.toNat ≤ range.2

end GameRelay.Text
