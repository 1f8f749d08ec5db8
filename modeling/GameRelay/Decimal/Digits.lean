/-!
# Decimal digits

Digits are numbers below ten. `value` reads a run of digits, most significant first, and
`digits` writes a natural number without leading zeros; reading gives back what was written.
-/

set_option autoImplicit false
set_option relaxedAutoImplicit false

namespace GameRelay.Decimal

abbrev Digit := Fin 10

namespace Digit

def toChar (d : Digit) : Char := Char.ofNat (48 + d.val)

def ofChar? (c : Char) : Option Digit :=
  if h : 48 ≤ c.toNat ∧ c.toNat ≤ 57 then some ⟨c.toNat - 48, by omega⟩ else none

@[simp] theorem ofChar?_toChar (d : Digit) : ofChar? d.toChar = some d := by
  revert d
  decide

end Digit

/-- The number that a run of digits stands for, the most significant digit first. -/
def value (ds : List Digit) : Nat :=
  ds.foldl (fun n d => 10 * n + d.val) 0

/-- The digits of a number in front of digits already written. -/
def digitsOnto (n : Nat) (after : List Digit) : List Digit :=
  if h : n < 10 then ⟨n, h⟩ :: after
  else digitsOnto (n / 10) (⟨n % 10, Nat.mod_lt n (by decide)⟩ :: after)

/-- The decimal digits of a number, without leading zeros; zero has the one digit 0. -/
def digits (n : Nat) : List Digit := digitsOnto n []

def takeDigits : List Char → List Digit × List Char
  | [] => ([], [])
  | c :: rest =>
    match Digit.ofChar? c with
    | some d =>
      let after := takeDigits rest
      (d :: after.1, after.2)
    | none => ([], c :: rest)

def digitChars (ds : List Digit) : List Char := ds.map Digit.toChar

private theorem foldl_digitsOnto (n : Nat) (after : List Digit) :
    (digitsOnto n after).foldl (fun m d => 10 * m + d.val) 0 =
      after.foldl (fun m d => 10 * m + d.val) n := by
  fun_induction digitsOnto n after with
  | case1 n after h => simp
  | case2 n after h ih =>
    rw [ih]
    simp only [List.foldl_cons]
    congr 1
    omega

@[simp] theorem value_digits (n : Nat) : value (digits n) = n := by
  simp [value, digits, foldl_digitsOnto]

theorem takeDigits_digitChars_append (ds : List Digit) {rest : List Char}
    (h : ∀ c ∈ rest.head?, Digit.ofChar? c = none) :
    takeDigits (digitChars ds ++ rest) = (ds, rest) := by
  induction ds with
  | nil =>
    cases rest with
    | nil => rfl
    | cons c rest =>
      have hc := h c (by simp)
      simp [digitChars, takeDigits, hc]
  | cons d ds ih =>
    have hd : digitChars (d :: ds) = d.toChar :: digitChars ds := rfl
    simp [hd, takeDigits, ih]

end GameRelay.Decimal
