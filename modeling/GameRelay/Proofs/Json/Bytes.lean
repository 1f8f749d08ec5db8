import GameRelay.Proofs.Json.Lexer
import GameRelay.Proofs.Text.Utf8

/-!
# Reading tokens from bytes

A lexer that is given bytes need not know in advance that they write a text. Outside strings it
takes ASCII characters only, one byte each, and within strings the bytes of one character at a time.
So it takes exactly the tokens that the lexer of texts takes from the text that the bytes write, and
nothing at all from bytes that write none, wherever they go wrong.
-/

set_option autoImplicit false
set_option relaxedAutoImplicit false

namespace GameRelay.Json

open Decimal Text

def IsAscii (c : Char) : Prop := c.toNat < 0x80

instance (c : Char) : Decidable (IsAscii c) := inferInstanceAs (Decidable (c.toNat < 0x80))

private theorem isAscii_of_ofChar? {c : Char} {d : Digit} (digit : Digit.ofChar? c = some d) :
    IsAscii c := by
  unfold Digit.ofChar? at digit
  split at digit
  · rename_i range
    exact Nat.lt_of_le_of_lt range.2 (by decide)
  · cases digit

theorem mem_takeDigits {cs : List Char} {c : Char} (member : c ∈ cs) :
    IsAscii c ∨ c ∈ (takeDigits cs).2 := by
  fun_induction takeDigits cs with
  | case1 => cases member
  | case2 first rest d digit after ih =>
    rcases List.mem_cons.mp member with rfl | member
    · exact .inl (isAscii_of_ofChar? digit)
    · exact ih member
  | case3 first rest other => exact .inr member

private theorem isAscii_of_takeDigits {cs : List Char} (all : (takeDigits cs).2 = []) :
    ∀ c ∈ cs, IsAscii c := by
  intro c member
  rcases mem_takeDigits member with ascii | later
  · exact ascii
  · rw [all] at later
    cases later

theorem Exponent.isAscii_of_read? {cs : List Char} {e : Exponent} (read : read? cs = some e) :
    ∀ c ∈ cs, IsAscii c := by
  unfold read? at read
  split at read
  rename_i negative rest form
  split at read
  · rename_i d ds digits
    have ascii := isAscii_of_takeDigits (congrArg Prod.snd digits)
    split at form
    all_goals cases form
    · exact List.forall_mem_cons.mpr ⟨by decide, ascii⟩
    · exact List.forall_mem_cons.mpr ⟨by decide, ascii⟩
    · exact ascii
  · cases read

namespace Numeral

theorem isAscii_of_readExponent? {cs : List Char} {e : Option Exponent}
    (read : readExponent? cs = some e) : ∀ c ∈ cs, IsAscii c := by
  unfold readExponent? at read
  split at read
  · exact nofun
  · rename_i first rest
    split_ifs at read with letter
    obtain ⟨x, digits, rfl⟩ := Option.map_eq_some_iff.mp read
    refine List.forall_mem_cons.mpr ⟨?_, Exponent.isAscii_of_read? digits⟩
    rcases letter with rfl | rfl <;> decide

private theorem isAscii_of_readFraction? {negative : Bool} {whole : List Digit} {cs : List Char}
    {n : Numeral} (read : readFraction? negative whole cs = some n) : ∀ c ∈ cs, IsAscii c := by
  unfold readFraction? at read
  split at read
  · rename_i rest
    split at read
    · cases read
    · rename_i d ds after digits
      obtain ⟨e, exponent, rfl⟩ := Option.map_eq_some_iff.mp read
      refine List.forall_mem_cons.mpr ⟨by decide, ?_⟩
      intro c member
      rcases mem_takeDigits member with ascii | later
      · exact ascii
      · exact isAscii_of_readExponent? exponent c (by rwa [digits] at later)
  · obtain ⟨e, exponent, rfl⟩ := Option.map_eq_some_iff.mp read
    exact isAscii_of_readExponent? exponent

theorem isAscii_of_readUnsigned? {negative : Bool} {cs : List Char} {n : Numeral}
    (read : readUnsigned? negative cs = some n) : ∀ c ∈ cs, IsAscii c := by
  rw [readUnsigned?] at read
  split_ifs at read
  intro c member
  rcases mem_takeDigits member with ascii | later
  · exact ascii
  · exact isAscii_of_readFraction? read c later

theorem isAscii_of_read? {cs : List Char} {n : Numeral} (read : read? cs = some n) :
    ∀ c ∈ cs, IsAscii c := by
  by_cases minus : ∃ rest, cs = '-' :: rest
  · obtain ⟨rest, rfl⟩ := minus
    rw [read?_minus] at read
    exact List.forall_mem_cons.mpr ⟨by decide, isAscii_of_readUnsigned? read⟩
  · rw [read?_of_ne_minus (by simpa using minus)] at read
    exact isAscii_of_readUnsigned? read

end Numeral

namespace Literal

private theorem isAscii_of_bareWord {word : String} (bare : word ∈ bareWords) :
    ∀ c ∈ word.toList, IsAscii c := by
  have all : bareWords.all fun word => word.toList.all fun c => decide (IsAscii c) := by decide
  intro c member
  exact of_decide_eq_true (List.all_eq_true.mp (List.all_eq_true.mp all word bare) c member)

theorem isAscii_of_read? {limit : Nat} {cs : List Char} {l : Literal}
    (read : read? limit cs = some l) : ∀ c ∈ cs, IsAscii c := by
  unfold read? at read
  split_ifs at read with null true_ false_ nan positive negative
  case neg =>
    obtain ⟨n, numeral, -⟩ := Option.bind_eq_some_iff.mp read
    exact Numeral.isAscii_of_read? numeral
  all_goals
    subst cs
    exact isAscii_of_bareWord (by simp [bareWords])

end Literal

theorem ne_of_wide {c d : Char} (wide : ¬IsAscii c) (ascii : IsAscii d) : c ≠ d := by
  rintro rfl
  exact wide ascii

private theorem hexValue?_of_wide {c : Char} (wide : ¬IsAscii c) : Text.hexValue? c = none := by
  unfold IsAscii at wide
  unfold Text.hexValue?
  rw [if_neg (by omega), if_neg (by omega), if_neg (by omega)]

private theorem spells_of_isAscii {c : Char} {first : List UInt8} (spells : Spells c first)
    (ascii : IsAscii c) : ∃ b : UInt8, first = [b] ∧ b.toNat ≤ 0x7f ∧ c = Char.ofNat b.toNat := by
  have low : c.val.toNat ≤ 0x7f := Nat.le_of_lt_succ ascii
  have byte : (UInt8.ofNat c.val.toNat).toNat = c.val.toNat :=
    UInt8.toNat_ofNat_of_lt' (Nat.lt_of_le_of_lt low (by decide))
  rw [spells_iff, String.utf8EncodeChar, if_pos low] at spells
  refine ⟨UInt8.ofNat c.val.toNat, spells.symm, by rwa [byte], ?_⟩
  rw [byte]
  exact c.ofNat_toNat.symm

namespace Lexer

variable {limits : Limits}

private theorem endsLiteral_of_wide {c : Char} (wide : ¬IsAscii c) : endsLiteral c = false := by
  simp (disch := decide) [endsLiteral, isBlank, punctuation?, ne_of_wide wide]

private theorem escaped?_of_wide {c : Char} (wide : ¬IsAscii c) : escaped? c = none := by
  simp (disch := decide) [escaped?, ne_of_wide wide]

private theorem outcome_wide_literal {ts : List Token} {gathered : List Char} {c : Char}
    (wide : ¬IsAscii c) (member : c ∈ gathered) (cs : List Char) :
    outcome limits ⟨ts, .literal gathered⟩ cs = none := by
  have unread {gathered : List Char} (member : c ∈ gathered) :
      Literal.read? limits.digits gathered.reverse = none := by
    refine Option.eq_none_iff_forall_ne_some.mpr fun l read => ?_
    exact wide (Literal.isAscii_of_read? read c (List.mem_reverse.mpr member))
  induction cs generalizing gathered with
  | nil => simp [outcome, run, finish, unread member]
  | cons d cs ih =>
    rw [outcome, run, step]
    split_ifs with ended
    · rw [unread member]
      rfl
    · exact ih (List.mem_cons_of_mem d member)

private theorem mode_of_wide {lexer : Lexer} {c : Char} {cs : List Char} {ts : List Token}
    (wide : ¬IsAscii c) (read : outcome limits lexer (c :: cs) = some ts) :
    ∃ before gathered, lexer = ⟨before, .string gathered⟩ := by
  obtain ⟨before, mode⟩ := lexer
  have refused (none : step limits ⟨before, mode⟩ c = none) : False := by
    rw [outcome, run, none] at read
    cases read
  have gathers {gathered : List Char} (member : c ∈ gathered)
      (taken : step limits ⟨before, mode⟩ c = some ⟨before, .literal gathered⟩) : False := by
    rw [outcome, run, taken, Option.bind_some, ← outcome,
      outcome_wide_literal wide member] at read
    cases read
  have open_ := endsLiteral_of_wide wide
  cases mode with
  | string gathered => exact ⟨before, gathered, rfl⟩
  | between =>
    exact (gathers List.mem_cons_self (congrArg some (stepBetween_of_not_ends open_))).elim
  | literal gathered =>
    exact (gathers List.mem_cons_self (by rw [step, if_neg (by simp [open_])])).elim
  | escape gathered =>
    exact (refused (by simp (disch := decide) [step, ne_of_wide wide, escaped?_of_wide wide])).elim
  | unit gathered high digits number =>
    exact (refused (by simp [step, hexValue?_of_wide wide])).elim
  | pair gathered high =>
    exact (refused (by simp (disch := decide) [step, ne_of_wide wide])).elim
  | pairEscape gathered high =>
    exact (refused (by simp (disch := decide) [step, ne_of_wide wide])).elim

/-- What a lexer takes from bytes: anywhere one byte for an ASCII character, and within a string
all bytes of a character. -/
inductive Takes (limits : Limits) : Lexer → List UInt8 → Lexer → Prop
  | nil (lexer : Lexer) : Takes limits lexer [] lexer
  | ascii {lexer next final : Lexer} {b : UInt8} {rest : List UInt8} (ascii : b.toNat ≤ 0x7f)
      (taken : step limits lexer (Char.ofNat b.toNat) = some next)
      (more : Takes limits next rest final) : Takes limits lexer (b :: rest) final
  | within {before : List Token} {gathered : List Char} {next final : Lexer} {c : Char}
      {first rest : List UInt8} (spells : Spells c first)
      (taken : step limits ⟨before, .string gathered⟩ c = some next)
      (more : Takes limits next rest final) :
    Takes limits ⟨before, .string gathered⟩ (first ++ rest) final

/-- What a lexer takes from bytes it takes from the text that they write; so they write one. -/
theorem Takes.run {lexer final : Lexer} {bytes : List UInt8}
    (takes : Takes limits lexer bytes final) :
    ∃ cs, Encodes cs bytes ∧ lexer.run limits cs = some final := by
  induction takes with
  | nil lexer => exact ⟨[], .nil, rfl⟩
  | ascii ascii taken more ih =>
    obtain ⟨cs, encodes, ran⟩ := ih
    exact ⟨_ :: cs, .cons (.one _ ascii) encodes, by rwa [Lexer.run, taken, Option.bind_some]⟩
  | within spells taken more ih =>
    obtain ⟨cs, encodes, ran⟩ := ih
    exact ⟨_ :: cs, .cons spells encodes, by rwa [Lexer.run, taken, Option.bind_some]⟩

private theorem takes_of_encodes {lexer : Lexer} {cs : List Char} {bytes : List UInt8}
    {ts : List Token} (encodes : Encodes cs bytes) (read : outcome limits lexer cs = some ts) :
    ∃ final, Takes limits lexer bytes final ∧ finish limits final = some ts := by
  induction encodes generalizing lexer with
  | nil => exact ⟨lexer, .nil lexer, read⟩
  | @cons c cs first rest spells encodes ih =>
    -- the place is read off before the step is taken, for it depends on what comes later
    have place (wide : ¬IsAscii c) := mode_of_wide wide read
    unfold outcome at read
    obtain ⟨final, ran, finished⟩ := Option.bind_eq_some_iff.mp read
    obtain ⟨next, taken, ran⟩ := Option.bind_eq_some_iff.mp ran
    have later : outcome limits next cs = some ts := by rwa [outcome, ran, Option.bind_some]
    obtain ⟨final, takes, finished⟩ := ih later
    by_cases ascii : IsAscii c
    · obtain ⟨b, rfl, low, rfl⟩ := spells_of_isAscii spells ascii
      exact ⟨final, .ascii low taken takes, finished⟩
    · obtain ⟨before, gathered, rfl⟩ := place ascii
      exact ⟨final, .within spells taken takes, finished⟩

end Lexer

/-- Some bytes write tokens. -/
def Tokenizes (limits : Limits) (bytes : List UInt8) (ts : List Token) : Prop :=
  ∃ final, Lexer.Takes limits .start bytes final ∧ Lexer.finish limits final = some ts

/-- Reading tokens from bytes is reading them from the text that the bytes write. -/
theorem tokenizes_iff {limits : Limits} {bytes : List UInt8} {ts : List Token} :
    Tokenizes limits bytes ts ↔ ∃ cs, Encodes cs bytes ∧ tokens? limits cs = some ts := by
  constructor
  · rintro ⟨final, takes, finished⟩
    obtain ⟨cs, encodes, ran⟩ := takes.run
    exact ⟨cs, encodes, by rwa [tokens?, ran, Option.bind_some]⟩
  · rintro ⟨cs, encodes, read⟩
    exact Lexer.takes_of_encodes encodes read

end GameRelay.Json
