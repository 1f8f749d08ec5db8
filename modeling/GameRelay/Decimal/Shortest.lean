import GameRelay.Decimal.Binary64

/-!
# Short decimals near a binary64 number

The search for the decimal with the fewest digits that says which number is meant, and of those
the nearest to it. Each grid of decimals, from one digit to seventeen, offers the two neighbours of
the value, the nearer first and the even one when both are equally near. Who searches decides which
decimals will do; the exact decimal always would.
-/

set_option autoImplicit false
set_option relaxedAutoImplicit false

namespace GameRelay.Decimal

/-- The decimal `digits * 10 ^ exponent`. -/
structure Scientific where
  digits : Nat
  exponent : Int
  deriving DecidableEq

namespace Scientific

/-- The count of decimal digits of a positive number. -/
def width (n : Nat) : Nat := if n < 10 then 1 else width (n / 10) + 1

/-- The number of digits before the point of a positive quotient; for a quotient below one, minus
the number of zeros after it. -/
def pointOf (num den : Nat) : Int :=
  if den ≤ num then (width (num / den) : Int) else 1 - (width ((den - 1) / num) : Int)

/-- The two neighbours of a quotient among the multiples of `10 ^ exponent`, the nearer first. -/
def neighbours (num den : Nat) (exponent : Int) : List Scientific :=
  let scaled := num * Nat.pow 10 (-exponent).toNat
  let unit := den * Nat.pow 10 exponent.toNat
  let below := scaled / unit
  let twice := 2 * (scaled % unit)
  if twice < unit ∨ (twice = unit ∧ below % 2 = 0) then
    [⟨below, exponent⟩, ⟨below + 1, exponent⟩]
  else [⟨below + 1, exponent⟩, ⟨below, exponent⟩]

/-- The decimal that is exactly `significand * 2 ^ exponent`. -/
def exact (significand : Nat) (exponent : Int) : Scientific :=
  ⟨significand * Nat.pow 2 exponent.toNat * Nat.pow 5 (-exponent).toNat, min exponent 0⟩

/-- The shortest decimal near `significand * 2 ^ exponent` that will do. -/
def shortest? (accepts : Scientific → Bool) (significand : Nat) (exponent : Int) :
    Option Scientific :=
  let num := significand * Nat.pow 2 exponent.toNat
  let den := Nat.pow 2 (-exponent).toNat
  let point := pointOf num den
  (List.range 17).findSome? fun n =>
    (neighbours num den (point - (n + 1 : Nat))).find? accepts

theorem accepts_of_shortest? {accepts : Scientific → Bool} {significand : Nat} {exponent : Int}
    {d : Scientific} (h : shortest? accepts significand exponent = some d) : accepts d := by
  obtain ⟨n, _, found⟩ := List.exists_of_findSome?_eq_some h
  exact List.find?_some found

end Scientific

end GameRelay.Decimal
