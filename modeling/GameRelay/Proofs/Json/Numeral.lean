import GameRelay.Json.Token
import GameRelay.Proofs.Decimal

/-!
# Literals read back

The text of a numeral is read as this numeral, the numeral of a number as this number, and so the
text of every literal as this literal, as long as the reader takes as many digits as were written.
-/

set_option autoImplicit false
set_option relaxedAutoImplicit false

namespace GameRelay.Json

open Decimal

private theorem toChar_ne_minus (d : Digit) : d.toChar ≠ '-' := by
  revert d
  decide

private theorem takeDigits_digitChars (ds : List Digit) :
    takeDigits (digitChars ds) = (ds, []) := by
  simpa using @takeDigits_digitChars_append ds [] (by simp)

namespace Exponent

theorem read?_chars {e : Exponent} (some_digit : e.digits ≠ []) : read? e.chars = some e := by
  obtain ⟨negative, ds⟩ := e
  obtain ⟨d, ds, rfl⟩ := List.exists_cons_of_ne_nil some_digit
  cases negative <;> simp [read?, chars, takeDigits_digitChars]

private theorem digits_ne_nil_of_read? {cs : List Char} {e : Exponent} (read : read? cs = some e) :
    e.digits ≠ [] := by
  unfold read? at read
  split at read
  split at read
  · cases read
    exact List.cons_ne_nil _ _
  · cases read

private theorem digits_ofInt_ne_nil (n : Int) : (ofInt n).digits ≠ [] := by
  simp [ofInt, digits_ne_nil]

@[simp] theorem toInt_ofInt (n : Int) : (ofInt n).toInt = n := by
  simp only [toInt, ofInt, value_replicate_zero_append, value_digits, decide_eq_true_eq]
  split <;> omega

end Exponent

namespace Numeral

/-- What a text of a numeral has to show: a whole part that is one, and digits after the point and
in the exponent. -/
structure WellFormed (n : Numeral) : Prop where
  whole : isWhole n.whole
  fraction : n.fraction ≠ some []
  exponent : ∀ e ∈ n.exponent, e.digits ≠ []

theorem ne_nil_of_isWhole {ds : List Digit} (h : isWhole ds) : ds ≠ [] := by
  rintro rfl
  cases h

theorem isWhole_digits (n : Nat) : isWhole (digits n) := by
  rcases n.eq_zero_or_pos with rfl | positive
  · simp [digits_of_lt, isWhole]
  · obtain ⟨d, ds, form, first⟩ := digits_eq_cons positive
    rw [form]
    cases ds with
    | nil => rfl
    | cons => simpa [isWhole] using first

def fractionChars : Option (List Digit) → List Char
  | some ds => '.' :: digitChars ds
  | none => []

def exponentChars : Option Exponent → List Char
  | some e => 'e' :: e.chars
  | none => []

theorem chars_eq (n : Numeral) :
    n.chars = (if n.negative then ['-'] else []) ++
      (digitChars n.whole ++ (fractionChars n.fraction ++ exponentChars n.exponent)) := by
  obtain ⟨negative, whole, fraction, exponent⟩ := n
  cases fraction <;> cases exponent <;> simp [chars, fractionChars, exponentChars]

private theorem readExponent?_exponentChars {e : Option Exponent}
    (some_digit : ∀ x ∈ e, x.digits ≠ []) : readExponent? (exponentChars e) = some e := by
  cases e with
  | none => rfl
  | some e => simp [readExponent?, exponentChars, Exponent.read?_chars (some_digit e rfl)]

private theorem takeDigits_exponentChars (ds : List Digit) (e : Option Exponent) :
    takeDigits (digitChars ds ++ exponentChars e) = (ds, exponentChars e) :=
  takeDigits_digitChars_append ds (by cases e <;> simp [exponentChars, Digit.ofChar?])

private theorem takeDigits_fractionChars (ds : List Digit) (f : Option (List Digit))
    (e : Option Exponent) : takeDigits (digitChars ds ++ (fractionChars f ++ exponentChars e)) =
      (ds, fractionChars f ++ exponentChars e) :=
  takeDigits_digitChars_append ds
    (by cases f <;> cases e <;> simp [fractionChars, exponentChars, Digit.ofChar?])

def readFraction? (negative : Bool) (whole : List Digit) : List Char → Option Numeral
  | '.' :: rest =>
    match takeDigits rest with
    | ([], _) => none
    | (d :: ds, rest) => (readExponent? rest).map fun e => ⟨negative, whole, some (d :: ds), e⟩
  | rest => (readExponent? rest).map fun e => ⟨negative, whole, none, e⟩

def readUnsigned? (negative : Bool) (cs : List Char) : Option Numeral :=
  if isWhole (takeDigits cs).1 then readFraction? negative (takeDigits cs).1 (takeDigits cs).2
  else none

theorem read?_minus (rest : List Char) : read? ('-' :: rest) = readUnsigned? true rest := rfl

theorem read?_of_ne_minus {cs : List Char} (h : ∀ rest, cs ≠ '-' :: rest) :
    read? cs = readUnsigned? false cs := by
  simp only [read?]
  rfl

private theorem readFraction?_chars (negative : Bool) (whole : List Digit) {f : Option (List Digit)}
    {e : Option Exponent} (some_fraction : f ≠ some []) (some_digit : ∀ x ∈ e, x.digits ≠ []) :
    readFraction? negative whole (fractionChars f ++ exponentChars e) =
      some ⟨negative, whole, f, e⟩ := by
  have tail := readExponent?_exponentChars some_digit
  cases f with
  | none =>
    cases e with
    | none => rfl
    | some e => simpa [fractionChars, exponentChars, readFraction?] using tail
  | some ds =>
    obtain ⟨d, ds, rfl⟩ := List.exists_cons_of_ne_nil fun none => some_fraction (congrArg some none)
    simp [fractionChars, readFraction?, takeDigits_exponentChars, tail]

theorem read?_chars {n : Numeral} (h : n.WellFormed) : read? n.chars = some n := by
  obtain ⟨negative, whole, fraction, exponent⟩ := n
  obtain ⟨whole_ok, fraction_ok, exponent_ok⟩ := h
  have body (negative : Bool) : readUnsigned? negative
      (digitChars whole ++ (fractionChars fraction ++ exponentChars exponent)) =
        some ⟨negative, whole, fraction, exponent⟩ := by
    rw [readUnsigned?, takeDigits_fractionChars, if_pos whole_ok]
    exact readFraction?_chars negative whole fraction_ok exponent_ok
  rw [chars_eq]
  cases negative with
  | true => exact (read?_minus _).trans (body true)
  | false =>
    refine (read?_of_ne_minus ?_).trans (body false)
    obtain ⟨d, ds, rfl⟩ := List.exists_cons_of_ne_nil (ne_nil_of_isWhole whole_ok)
    simp [digitChars, toChar_ne_minus]

theorem digits_ne_nil_of_readExponent? {cs : List Char} {e : Option Exponent}
    (read : readExponent? cs = some e) : ∀ x ∈ e, x.digits ≠ [] := by
  unfold readExponent? at read
  split at read
  · cases read
    exact nofun
  · split_ifs at read
    obtain ⟨x, digits, rfl⟩ := Option.map_eq_some_iff.mp read
    rintro y ⟨⟩
    exact Exponent.digits_ne_nil_of_read? digits

private theorem wellFormed_of_readFraction? {negative : Bool} {whole : List Digit} {cs : List Char}
    {n : Numeral} (whole_ok : isWhole whole) (read : readFraction? negative whole cs = some n) :
    n.WellFormed := by
  unfold readFraction? at read
  split at read
  · split at read
    · cases read
    · obtain ⟨e, exponent, rfl⟩ := Option.map_eq_some_iff.mp read
      exact ⟨whole_ok, by simp, digits_ne_nil_of_readExponent? exponent⟩
  · obtain ⟨e, exponent, rfl⟩ := Option.map_eq_some_iff.mp read
    exact ⟨whole_ok, by simp, digits_ne_nil_of_readExponent? exponent⟩

theorem wellFormed_of_readUnsigned? {negative : Bool} {cs : List Char} {n : Numeral}
    (read : readUnsigned? negative cs = some n) : n.WellFormed := by
  rw [readUnsigned?] at read
  split_ifs at read with whole_ok
  exact wellFormed_of_readFraction? whole_ok read

theorem wellFormed_of_read? {cs : List Char} {n : Numeral} (read : read? cs = some n) :
    n.WellFormed := by
  by_cases minus : ∃ rest, cs = '-' :: rest
  · obtain ⟨rest, rfl⟩ := minus
    rw [read?_minus] at read
    exact wellFormed_of_readUnsigned? read
  · rw [read?_of_ne_minus (by simpa using minus)] at read
    exact wellFormed_of_readUnsigned? read

theorem mem_chars {n : Numeral} {c : Char} (member : c ∈ n.chars) :
    c ∈ ['-', '+', '.', 'e'] ∨ ∃ d : Digit, c = d.toChar := by
  have digit {ds : List Digit} (member : c ∈ digitChars ds) : ∃ d : Digit, c = d.toChar := by
    obtain ⟨d, -, rfl⟩ := List.mem_map.mp member
    exact ⟨d, rfl⟩
  obtain ⟨negative, whole, fraction, exponent⟩ := n
  simp only [chars_eq, List.mem_append] at member
  rcases member with sign | member | member | member
  · cases negative <;> simp_all
  · exact .inr (digit member)
  · cases fraction with
    | none => cases member
    | some ds =>
      rcases List.mem_cons.mp member with rfl | member
      · exact .inl (by decide)
      · exact .inr (digit member)
  · cases exponent with
    | none => cases member
    | some e =>
      rcases List.mem_cons.mp member with rfl | member
      · exact .inl (by decide)
      · rcases List.mem_cons.mp member with rfl | member
        · exact .inl (by cases e.negative <;> decide)
        · exact .inr (digit member)

theorem wellFormed_ofInt (n : Int) : (ofInt n).WellFormed :=
  ⟨isWhole_digits _, nofun, nofun⟩

@[simp] theorem toInt_ofInt (n : Int) : (ofInt n).toInt = n := by
  simp only [toInt, ofInt, value_digits, decide_eq_true_eq]
  split <;> omega

private theorem wellFormed_ofExact (negative : Bool) (d : Scientific) :
    (ofExact negative d).WellFormed :=
  ⟨isWhole_digits _, nofun, by simp [ofExact, Exponent.digits_ofInt_ne_nil]⟩

variable {significand : Nat} {exponent : Int}

theorem means_iff (n : Numeral) (x : Binary64) :
    n.means x ↔ read? n.chars = some n ∧ n.isInteger = false ∧ n.toBinary64 = x := by
  simp [means, and_assoc]

private theorem means_zero (negative : Bool) :
    (⟨negative, [0], some [0], none⟩ : Numeral).means (Binary64.zero negative) := by
  cases negative <;> decide

private theorem means_ofExact (negative : Bool) (canonical : IsCanonical significand exponent)
    (some_significand : significand ≠ 0) :
    (ofExact negative (Scientific.exact significand exponent)).means
      (.finite negative significand exponent canonical) := by
  refine (means_iff _ _).mpr ⟨read?_chars (wellFormed_ofExact negative _), rfl, ?_⟩
  simpa [toBinary64, ofExact] using
    Scientific.ofScientific_exact negative canonical some_significand

theorem means_ofForm (negative : Bool) (canonical : IsCanonical significand exponent) :
    (ofForm (.finite negative significand exponent canonical) negative significand exponent).means
      (.finite negative significand exponent canonical) := by
  unfold ofForm
  split_ifs with zero
  · subst zero
    obtain rfl : exponent = -1074 := by
      obtain ⟨-, -, -, full | least⟩ := canonical
      · exact absurd full (by decide)
      · exact least
    exact means_zero negative
  · split
    · rename_i d found
      exact Scientific.accepts_of_shortest? found
    · exact means_ofExact negative canonical zero

private theorem length_whole_layOut_le (negative : Bool) (ds : List Digit) (point : Int) :
    (layOut negative ds point).whole.length ≤ 16 := by
  unfold layOut
  split_ifs with range below
  · simp
  · simp only [List.length_append, List.length_take, List.length_replicate]
    omega
  · simp

private theorem length_whole_ofForm_le (negative : Bool)
    (canonical : IsCanonical significand exponent) :
    (ofForm (.finite negative significand exponent canonical) negative significand
      exponent).whole.length ≤ Scientific.exactWidth := by
  unfold ofForm
  split_ifs with zero
  · simp [Scientific.exactWidth]
  · split
    · exact (length_whole_layOut_le _ _ _).trans (by decide)
    · exact Scientific.length_digits_exact_le canonical

end Numeral

namespace Literal

def Fits (limit : Nat) : Literal → Prop
  | .int n => (digits n.natAbs).length ≤ limit
  | _ => True

/-- The literals that are no numerals. -/
def bareWords : List String := ["null", "true", "false", "NaN", "Infinity", "-Infinity"]

private theorem read?_bareWord : ∀ word ∈ bareWords, Numeral.read? word.toList = none := by
  decide

theorem read?_of_numeral (limit : Nat) {cs : List Char} {n : Numeral}
    (read : Numeral.read? cs = some n) : read? limit cs = ofNumeral? limit n := by
  have other {word : String} (bare : word ∈ bareWords) : cs ≠ word.toList := by
    rintro rfl
    rw [read?_bareWord word bare] at read
    cases read
  rw [Literal.read?, if_neg (other (by decide)), if_neg (other (by decide)),
    if_neg (other (by decide)), if_neg (other (by decide)), if_neg (other (by decide)),
    if_neg (other (by decide)), read, Option.bind_some]

theorem chars_int (n : Int) : (int n).chars = (Numeral.ofInt n).chars := by
  unfold chars
  rfl

theorem chars_finite (negative : Bool) {significand : Nat} {exponent : Int}
    (canonical : IsCanonical significand exponent) :
    (float (.finite negative significand exponent canonical)).chars =
      (Numeral.ofForm (.finite negative significand exponent canonical) negative significand
        exponent).chars := by
  unfold chars
  rfl

theorem chars_cases (l : Literal) :
    (∃ word ∈ bareWords, l.chars = word.toList) ∨ ∃ n : Numeral, l.chars = n.chars := by
  unfold chars
  split
  case h_4 => exact .inr ⟨_, rfl⟩
  case h_8 => exact .inr ⟨_, rfl⟩
  all_goals exact .inl ⟨_, by decide, rfl⟩

theorem read?_chars {limit : Nat} (room : Scientific.exactWidth ≤ limit) {l : Literal}
    (fits : l.Fits limit) : read? limit l.chars = some l := by
  cases l with
  | null =>
    unfold chars
    simp [read?]
  | bool b =>
    unfold chars
    cases b <;> simp [read?]
  | int n =>
    have read := read?_of_numeral limit (Numeral.read?_chars (Numeral.wellFormed_ofInt n))
    have short : (Numeral.ofInt n).whole.length ≤ limit := fits
    rw [chars_int, read, ofNumeral?, if_pos short, Numeral.toInt_ofInt]
    rfl
  | float x =>
    cases x with
    | nan =>
      unfold chars
      simp [read?]
    | infinite negative =>
      unfold chars
      cases negative <;> simp [read?]
    | finite negative significand exponent canonical =>
      obtain ⟨read, point, number⟩ :=
        (Numeral.means_iff _ _).mp (Numeral.means_ofForm negative canonical)
      have short := (Numeral.length_whole_ofForm_le negative canonical).trans room
      rw [chars_finite, read?_of_numeral limit read, ofNumeral?, if_pos short, point, number]
      rfl

theorem fits_of_read? {limit : Nat} {cs : List Char} {l : Literal}
    (read : read? limit cs = some l) : l.Fits limit := by
  unfold read? at read
  split_ifs at read
  case neg =>
    obtain ⟨n, numeral, read⟩ := Option.bind_eq_some_iff.mp read
    unfold ofNumeral? at read
    split_ifs at read with short integer
    · cases read
      have some_digit := Numeral.ne_nil_of_isWhole (Numeral.wellFormed_of_read? numeral).whole
      have size : n.toInt.natAbs = value n.whole := by
        unfold Numeral.toInt
        split <;> omega
      simp only [Fits, size]
      exact (length_digits_value_le some_digit).trans short
    · cases read
      trivial
  all_goals
    cases read
    trivial

end Literal

end GameRelay.Json
