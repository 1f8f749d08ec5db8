/-!
# Binary64 numbers

A finite number is a signed product `significand * 2 ^ exponent` with at most 53 significant
bits. Each number has one such form: the significand has 53 bits, or the exponent is the least
one. Rounding to a number is exact natural arithmetic on a quotient; a half goes to the even
neighbour, and what is too large becomes infinite.
-/

set_option autoImplicit false
set_option relaxedAutoImplicit false

namespace GameRelay.Decimal

/-- The one form of a magnitude: 53 bits, or fewer at the least exponent. -/
def IsCanonical (significand : Nat) (exponent : Int) : Prop :=
  significand < Nat.pow 2 53 ∧ -1074 ≤ exponent ∧ exponent ≤ 971 ∧
    (Nat.pow 2 52 ≤ significand ∨ exponent = -1074)

instance (significand : Nat) (exponent : Int) : Decidable (IsCanonical significand exponent) :=
  inferInstanceAs (Decidable (_ ∧ _))

/-- A binary64 number. Zero has a sign, and there is one value that is no number. -/
inductive Binary64
  | finite (negative : Bool) (significand : Nat) (exponent : Int)
      (canonical : IsCanonical significand exponent)
  | infinite (negative : Bool)
  | nan
  deriving DecidableEq

/-- The nearest integer to a quotient; a half goes to the even one. -/
def roundQuotient (num den : Nat) : Nat :=
  let quotient := num / den
  let twice := 2 * (num % den)
  if twice < den then quotient
  else if den < twice then quotient + 1
  else if quotient % 2 = 0 then quotient else quotient + 1

/-- The numerator of `num / den / 2 ^ exponent`. -/
def scaledNum (num : Nat) (exponent : Int) : Nat := num * Nat.pow 2 (-exponent).toNat

/-- The denominator of `num / den / 2 ^ exponent`. -/
def scaledDen (den : Nat) (exponent : Int) : Nat := den * Nat.pow 2 exponent.toNat

/-- The greatest exponent of two that a positive quotient reaches. -/
def log2Quotient (num den : Nat) : Int :=
  let guess : Int := (num.log2 : Int) - (den.log2 : Int)
  if scaledNum num guess < scaledDen den guess then guess - 1 else guess

namespace Binary64

def zero (negative : Bool) : Binary64 := .finite negative 0 (-1074) (by decide)

/-- The number of a form, infinite when the form is out of range. -/
def ofForm (negative : Bool) (significand : Nat) (exponent : Int) : Binary64 :=
  if h : IsCanonical significand exponent then .finite negative significand exponent h
  else .infinite negative

/-- The number nearest to a quotient. -/
def nearest (negative : Bool) (num den : Nat) : Binary64 :=
  if num = 0 then zero negative
  else
    let exponent := max (log2Quotient num den - 52) (-1074)
    let significand := roundQuotient (scaledNum num exponent) (scaledDen den exponent)
    if significand = Nat.pow 2 53 then ofForm negative (Nat.pow 2 52) (exponent + 1)
    else ofForm negative significand exponent

/-- The number nearest to `digits * 10 ^ exponent`. Below `10 ^ (-400)` everything is zero and
from `10 ^ 401` on everything is infinite, so that no power beyond those is worked out. -/
def ofScientific (negative : Bool) (digits : Nat) (exponent : Int) : Binary64 :=
  if digits = 0 ∨ exponent + digits.log2 + 1 < -400 then zero negative
  else if 400 < exponent then .infinite negative
  else nearest negative (digits * Nat.pow 10 exponent.toNat) (Nat.pow 10 (-exponent).toNat)

def ofInt (n : Int) : Binary64 := nearest (decide (n < 0)) n.natAbs 1

def scale (x : Binary64) (factor : Nat) : Binary64 :=
  match x with
  | .finite negative significand exponent _ =>
    nearest negative (significand * factor * Nat.pow 2 exponent.toNat)
      (Nat.pow 2 (-exponent).toNat)
  | other => other

/-- The integer part of a magnitude; zero for what is not finite. -/
def integerPart : Binary64 → Nat
  | .finite _ significand exponent _ =>
    significand * Nat.pow 2 exponent.toNat / Nat.pow 2 (-exponent).toNat
  | _ => 0

end Binary64

end GameRelay.Decimal
