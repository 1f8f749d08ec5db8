import GameRelay.Decimal.Digits
import GameRelay.Decimal.Shortest
import Mathlib.Data.Int.Log
import Mathlib.Data.Rat.Floor
import Mathlib.Tactic.FieldSimp
import Mathlib.Tactic.Ring
import Mathlib.Tactic.Positivity

/-!
# Digits and rounding

A number has no more digits than any run of digits that stands for it, and no zero in front of
them. Rounding a quotient to a binary64 number gives a number back when the quotient is exactly
that number; so the exact decimal of a number is read as this number.
-/

set_option autoImplicit false
set_option relaxedAutoImplicit false

namespace GameRelay.Decimal

private theorem value_append_singleton (ds : List Digit) (d : Digit) :
    value (ds ++ [d]) = 10 * value ds + d.val := by
  simp [value]

private theorem value_lt (ds : List Digit) : value ds < 10 ^ ds.length := by
  induction ds using List.reverseRecOn with
  | nil => decide
  | append_singleton ds d ih =>
    rw [value_append_singleton, List.length_append, List.length_singleton, pow_succ]
    omega

private theorem length_digitsOnto_le {n width : Nat} (after : List Digit) (positive : 0 < width)
    (small : n < 10 ^ width) : (digitsOnto n after).length ≤ width + after.length := by
  fun_induction digitsOnto n after generalizing width with
  | case1 n after h =>
    rw [List.length_cons]
    omega
  | case2 n after h ih =>
    obtain ⟨width, rfl⟩ := Nat.exists_eq_succ_of_ne_zero positive.ne'
    have left : n / 10 < 10 ^ width := by
      rw [pow_succ] at small
      omega
    have more : 0 < width := by
      by_contra none
      obtain rfl : width = 0 := by omega
      omega
    have bound := ih more left
    rw [List.length_cons] at bound
    omega

theorem length_digits_le {n width : Nat} (positive : 0 < width) (small : n < 10 ^ width) :
    (digits n).length ≤ width :=
  length_digitsOnto_le [] positive small

theorem length_digits_value_le {ds : List Digit} (some_digit : ds ≠ []) :
    (digits (value ds)).length ≤ ds.length :=
  length_digits_le (List.length_pos_iff.mpr some_digit) (value_lt ds)

private theorem digitsOnto_eq_cons {n : Nat} (after : List Digit) (positive : 0 < n) :
    ∃ d ds, digitsOnto n after = d :: ds ∧ d ≠ 0 := by
  fun_induction digitsOnto n after with
  | case1 n after h => exact ⟨⟨n, h⟩, after, rfl, fun zero => positive.ne' (Fin.val_eq_of_eq zero)⟩
  | case2 n after h ih => exact ih (by omega)

theorem digits_eq_cons {n : Nat} (positive : 0 < n) : ∃ d ds, digits n = d :: ds ∧ d ≠ 0 :=
  digitsOnto_eq_cons [] positive

theorem digits_of_lt {n : Nat} (h : n < 10) : digits n = [⟨n, h⟩] := by
  rw [digits, digitsOnto, dif_pos h]

theorem digits_ne_nil (n : Nat) : digits n ≠ [] := by
  rcases n.eq_zero_or_pos with rfl | positive
  · simp [digits_of_lt]
  · obtain ⟨d, ds, form, -⟩ := digits_eq_cons positive
    simp [form]

theorem value_replicate_zero_append (n : Nat) (ds : List Digit) :
    value (List.replicate n 0 ++ ds) = value ds := by
  induction n with
  | zero => rfl
  | succ n ih => simpa [value, List.replicate_succ] using ih

theorem zpow_mul_pow_toNat_neg (exponent : Int) :
    (2 : ℚ) ^ exponent * 2 ^ (-exponent).toNat = 2 ^ exponent.toNat := by
  rw [← zpow_natCast, ← zpow_natCast, ← zpow_add₀ two_ne_zero]
  congr 1
  omega

theorem scaled_lt_iff {num den : Nat} (some_den : den ≠ 0) (exponent : Int) :
    scaledNum num exponent < scaledDen den exponent ↔ (num : ℚ) / den < 2 ^ exponent := by
  have up : (0 : ℚ) < 2 ^ (-exponent).toNat := by positivity
  have den_pos : (0 : ℚ) < den := by exact_mod_cast Nat.pos_of_ne_zero some_den
  rw [div_lt_iff₀ den_pos, ← mul_lt_mul_iff_left₀ up, mul_right_comm,
    zpow_mul_pow_toNat_neg, mul_comm _ (den : ℚ)]
  unfold scaledNum scaledDen
  exact_mod_cast Iff.rfl

theorem le_scaled_iff {num den : Nat} (some_den : den ≠ 0) (exponent : Int) :
    scaledDen den exponent ≤ scaledNum num exponent ↔ (2 : ℚ) ^ exponent ≤ num / den := by
  rw [← not_lt, ← not_lt, scaled_lt_iff some_den]

/-- The lengths of numerator and denominator leave two candidates for the exponent. -/
private theorem between_guess {num den : Nat} (some_num : num ≠ 0) (some_den : den ≠ 0) :
    (2 : ℚ) ^ ((num.log2 : Int) - den.log2 - 1) ≤ num / den ∧
      (num : ℚ) / den < 2 ^ ((num.log2 : Int) - den.log2 + 1) := by
  have num_low : (2 : ℚ) ^ num.log2 ≤ num := by exact_mod_cast Nat.log2_self_le some_num
  have num_high : (num : ℚ) < 2 ^ (num.log2 + 1) := by exact_mod_cast Nat.lt_log2_self
  have den_low : (2 : ℚ) ^ den.log2 ≤ den := by exact_mod_cast Nat.log2_self_le some_den
  have den_high : (den : ℚ) < 2 ^ (den.log2 + 1) := by exact_mod_cast Nat.lt_log2_self
  have den_pos : (0 : ℚ) < den := lt_of_lt_of_le (by positivity) den_low
  constructor
  · calc (2 : ℚ) ^ ((num.log2 : Int) - den.log2 - 1)
        = 2 ^ num.log2 / 2 ^ (den.log2 + 1) := by
          rw [sub_sub, zpow_sub₀ two_ne_zero]
          norm_cast
      _ ≤ num / den := div_le_div₀ (by positivity) num_low den_pos den_high.le
  · calc (num : ℚ) / den
        < 2 ^ (num.log2 + 1) / 2 ^ den.log2 := by
          exact div_lt_div₀ num_high den_low (by positivity) (by positivity)
      _ = 2 ^ ((num.log2 : Int) - den.log2 + 1) := by
          rw [sub_add_eq_add_sub, zpow_sub₀ two_ne_zero]
          norm_cast

private theorem log2Quotient_eq {num den : Nat} (some_num : num ≠ 0) (some_den : den ≠ 0)
    {exponent : Int}
    (low : (2 : ℚ) ^ exponent ≤ num / den) (high : (num : ℚ) / den < 2 ^ (exponent + 1)) :
    log2Quotient num den = exponent := by
  have up : (1 : ℚ) < 2 := one_lt_two
  obtain ⟨guess_low, guess_high⟩ := between_guess some_num some_den
  have above_guess := (zpow_lt_zpow_iff_right₀ up).mp (guess_low.trans_lt high)
  have below_guess := (zpow_lt_zpow_iff_right₀ up).mp (low.trans_lt guess_high)
  simp only [log2Quotient]
  split_ifs with small
  · have below := (scaled_lt_iff some_den _).mp small
    have := (zpow_lt_zpow_iff_right₀ up).mp (low.trans_lt below)
    omega
  · have above := (le_scaled_iff some_den _).mp (not_lt.mp small)
    have := (zpow_lt_zpow_iff_right₀ up).mp (above.trans_lt high)
    omega

private theorem roundQuotient_mul (n : Nat) {den : Nat} (some_den : den ≠ 0) :
    roundQuotient (n * den) den = n := by
  simp [roundQuotient, Nat.mul_div_cancel _ (Nat.pos_of_ne_zero some_den),
    Nat.pos_of_ne_zero some_den]

section Exact

variable {significand num den : Nat} {exponent : Int}

private theorem scaledNum_of_exact (some_den : den ≠ 0)
    (exact : (num : ℚ) / den = significand * 2 ^ exponent) :
    scaledNum num exponent = significand * scaledDen den exponent := by
  have den_ne : (den : ℚ) ≠ 0 := by exact_mod_cast some_den
  have scaled : (num : ℚ) * 2 ^ (-exponent).toNat = significand * (den * 2 ^ exponent.toNat) := by
    rw [(div_eq_iff den_ne).mp exact, ← zpow_mul_pow_toNat_neg exponent]
    ring
  unfold scaledNum scaledDen
  exact_mod_cast scaled

private theorem log2Quotient_of_exact (some_significand : significand ≠ 0) (some_num : num ≠ 0)
    (some_den : den ≠ 0) (exact : (num : ℚ) / den = significand * 2 ^ exponent) :
    log2Quotient num den = significand.log2 + exponent := by
  have unit : (0 : ℚ) < 2 ^ exponent := zpow_pos two_pos exponent
  have low : (2 : ℚ) ^ significand.log2 ≤ significand := by
    exact_mod_cast Nat.log2_self_le some_significand
  have high : (significand : ℚ) < 2 ^ (significand.log2 + 1) := by
    exact_mod_cast Nat.lt_log2_self
  apply log2Quotient_eq some_num some_den
  · rw [exact, zpow_add₀ two_ne_zero, zpow_natCast]
    exact mul_le_mul_of_nonneg_right low unit.le
  · rw [exact, add_right_comm, zpow_add₀ two_ne_zero]
    exact mul_lt_mul_of_pos_right (by exact_mod_cast high) unit

private theorem IsCanonical.exponent_eq (canonical : IsCanonical significand exponent)
    (some_significand : significand ≠ 0) :
    max ((significand.log2 : Int) + exponent - 52) (-1074) = exponent := by
  obtain ⟨small, least, _, full⟩ := canonical
  have top : significand.log2 < 53 := (Nat.log2_lt some_significand).mpr small
  rcases full with full | full
  · have bottom : 52 ≤ significand.log2 := (Nat.le_log2 some_significand).mpr full
    omega
  · omega

/-- A quotient that is a number of the format is rounded to this number. -/
private theorem Binary64.nearest_of_exact (negative : Bool)
    (canonical : IsCanonical significand exponent)
    (some_significand : significand ≠ 0) (some_den : den ≠ 0)
    (exact : (num : ℚ) / den = significand * 2 ^ exponent) :
    nearest negative num den = .finite negative significand exponent canonical := by
  have some_num : num ≠ 0 := by
    rintro rfl
    have unit : (2 : ℚ) ^ exponent ≠ 0 := zpow_ne_zero exponent two_ne_zero
    simp [some_significand, unit] at exact
  have some_unit : scaledDen den exponent ≠ 0 := by
    simp [scaledDen, some_den]
  have rounded : roundQuotient (scaledNum num exponent) (scaledDen den exponent) = significand := by
    rw [scaledNum_of_exact some_den exact, roundQuotient_mul _ some_unit]
  have log := log2Quotient_of_exact some_significand some_num some_den exact
  simp only [nearest, if_neg some_num, log, canonical.exponent_eq some_significand, rounded,
    if_neg canonical.1.ne, ofForm, dif_pos canonical]

end Exact

namespace Scientific

variable {significand : Nat} {exponent : Int}

/-- How many digits an exact decimal has at most. -/
def exactWidth : Nat := 53 + 1074

theorem length_digits_exact_le (canonical : IsCanonical significand exponent) :
    (Decimal.digits (exact significand exponent).digits).length ≤ exactWidth := by
  obtain ⟨small, least, most, -⟩ := canonical
  have small : significand < 10 ^ 53 := small.trans (by decide)
  have twos : 2 ^ exponent.toNat ≤ 10 ^ exponent.toNat := Nat.pow_le_pow_left (by decide) _
  have fives : 5 ^ (-exponent).toNat ≤ 10 ^ (-exponent).toNat := Nat.pow_le_pow_left (by decide) _
  have below :
      (exact significand exponent).digits < 10 ^ (53 + exponent.toNat + (-exponent).toNat) := by
    rw [pow_add, pow_add]
    exact Nat.mul_lt_mul_of_lt_of_le (Nat.mul_lt_mul_of_lt_of_le small twos (by positivity)) fives
      (by positivity)
  have width := length_digits_le (by omega) below
  unfold exactWidth
  omega

theorem digits_exact_ne_zero (some_significand : significand ≠ 0) :
    (exact significand exponent).digits ≠ 0 := by
  simp [exact, some_significand]

private theorem not_tiny_exact (some_significand : significand ≠ 0) :
    ¬ (exact significand exponent).exponent + (exact significand exponent).digits.log2 + 1 <
      -400 := by
  have fours : 2 ^ (2 * (-exponent).toNat) ≤ (exact significand exponent).digits :=
    calc 2 ^ (2 * (-exponent).toNat)
        = (2 ^ 2) ^ (-exponent).toNat := pow_mul 2 2 _
      _ ≤ 5 ^ (-exponent).toNat := Nat.pow_le_pow_left (by decide) _
      _ ≤ significand * 2 ^ exponent.toNat * 5 ^ (-exponent).toNat :=
          Nat.le_mul_of_pos_left _ (by positivity)
  have log := (Nat.le_log2 (digits_exact_ne_zero some_significand)).mpr fours
  simp only [exact] at log ⊢
  omega

private theorem exact_quotient (significand : Nat) (exponent : Int) :
    (((exact significand exponent).digits *
        Nat.pow 10 (exact significand exponent).exponent.toNat : Nat) : ℚ) /
      (Nat.pow 10 (-(exact significand exponent).exponent).toNat : Nat) =
        significand * 2 ^ exponent := by
  have whole : (min exponent 0).toNat = 0 := by omega
  have tens : (-min exponent 0).toNat = (-exponent).toNat := by omega
  have twos := zpow_mul_pow_toNat_neg exponent
  simp only [exact, whole, tens, Nat.pow_eq]
  push_cast
  rw [mul_one, ← twos, show (10 : ℚ) = 2 * 5 by norm_num, mul_pow]
  field_simp

/-- The exact decimal of a number is read as this number. -/
theorem ofScientific_exact (negative : Bool) (canonical : IsCanonical significand exponent)
    (some_significand : significand ≠ 0) :
    Binary64.ofScientific negative (exact significand exponent).digits
      (exact significand exponent).exponent =
        .finite negative significand exponent canonical := by
  have not_huge : ¬ 400 < (exact significand exponent).exponent := by
    simp only [exact]
    omega
  simp only [Binary64.ofScientific, digits_exact_ne_zero some_significand,
    not_tiny_exact some_significand, not_huge, or_self, if_false]
  exact Binary64.nearest_of_exact negative canonical some_significand
    (pow_ne_zero _ (by decide)) (exact_quotient significand exponent)

end Scientific

end GameRelay.Decimal
