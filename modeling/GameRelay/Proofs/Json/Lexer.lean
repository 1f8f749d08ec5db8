import GameRelay.Json.Lexer
import GameRelay.Proofs.Json.Numeral

/-!
# Tokens read back

The lexer takes the text of a list of tokens apart into these tokens, as long as no two literals
stand side by side: then every literal is ended by the first character of the token after it.
-/

set_option autoImplicit false
set_option relaxedAutoImplicit false

namespace GameRelay.Json

open Decimal

namespace Token

def isLiteral : Token → Bool
  | .literal _ => true
  | _ => false

def Fits (limit : Nat) : Token → Prop
  | .literal l => l.Fits limit
  | _ => True

private theorem fits_of_not_literal {t : Token} (other : t.isLiteral = false) (limit : Nat) :
    t.Fits limit := by
  cases t with
  | literal l => cases other
  | _ => trivial

/-- Tokens that may stand side by side without a blank. -/
def Apart (a b : Token) : Prop := a.isLiteral → ¬ b.isLiteral

end Token

namespace Lexer

variable {limits : Limits} {ts : List Token} {gathered : List Char}

/-- The tokens of a text of which a part has been taken. -/
def outcome (limits : Limits) (lexer : Lexer) (cs : List Char) : Option (List Token) :=
  (lexer.run limits cs).bind (finish limits)

private theorem run_hexDigits {n : Nat} (small : n < 0xD800) (rest : List Char) :
    run limits ⟨ts, .unit gathered none 0 0⟩ (Text.hexDigits 4 n ++ rest) =
      run limits ⟨ts, .string (Char.ofNat n :: gathered)⟩ rest := by
  have digit (m : Nat) : Text.hexValue? (Text.hexDigit (m % 16)) = some (m % 16) :=
    Text.hexValue?_hexDigit (Nat.mod_lt m (by decide))
  have number :
      16 * (16 * (16 * (n / 16 / 16 / 16 % 16) + n / 16 / 16 % 16) + n / 16 % 16) + n % 16 = n := by
    omega
  have low : isLowSurrogate n = false := by
    simp only [isLowSurrogate, decide_eq_false_iff_not]
    omega
  have high : isHighSurrogate n = false := by
    simp only [isHighSurrogate, decide_eq_false_iff_not]
    omega
  simp [Text.hexDigits, run, step, digit, number, afterUnit, low, high]

theorem run_escape {letter c : Char} (letter_of : escaped? letter = some c) (rest : List Char) :
    run limits ⟨ts, .string gathered⟩ ('\\' :: letter :: rest) =
      run limits ⟨ts, .string (c :: gathered)⟩ rest := by
  have not_unit : letter ≠ 'u' := by
    rintro rfl
    cases letter_of
  simp [run, step, letter_of, not_unit]

private theorem run_stringChar (c : Char) (rest : List Char) :
    run limits ⟨ts, .string gathered⟩ (stringChar c ++ rest) =
      run limits ⟨ts, .string (c :: gathered)⟩ rest := by
  unfold stringChar
  split_ifs with quote backslash newline home tab backspace feed control
  · subst quote
    exact run_escape rfl rest
  · subst backslash
    exact run_escape rfl rest
  · subst newline
    exact run_escape rfl rest
  · subst home
    exact run_escape rfl rest
  · subst tab
    exact run_escape rfl rest
  · subst backspace
    exact run_escape rfl rest
  · subst feed
    exact run_escape rfl rest
  · have opened : run limits ⟨ts, .string gathered⟩
        ('\\' :: 'u' :: (Text.hexDigits 4 c.toNat ++ rest)) =
          run limits ⟨ts, .unit gathered none 0 0⟩ (Text.hexDigits 4 c.toNat ++ rest) := rfl
    rw [List.cons_append, List.cons_append, opened, run_hexDigits (by omega), Char.ofNat_toNat]
  · simp [run, step, quote, backslash, control]

private theorem run_stringChars (s : String) (rest : List Char) :
    run limits ⟨ts, .between⟩ (stringChars s ++ rest) =
      run limits ⟨.string s :: ts, .between⟩ rest := by
  have inside (cs gathered : List Char) :
      run limits ⟨ts, .string gathered⟩ (cs.flatMap stringChar ++ '"' :: rest) =
        run limits ⟨.string (String.ofList (gathered.reverse ++ cs)) :: ts, .between⟩ rest := by
    induction cs generalizing gathered with
    | nil => simp [run, step]
    | cons c cs ih => simp [run_stringChar, ih]
  have opened : step limits ⟨ts, .between⟩ '"' = some ⟨ts, .string []⟩ := rfl
  simp [stringChars, run, opened, inside]

private theorem endsLiteral_toChar (d : Digit) : endsLiteral d.toChar = false := by
  revert d
  decide

private theorem endsLiteral_of_mem_bareWord {word : String} (bare : word ∈ Literal.bareWords)
    {c : Char} (member : c ∈ word.toList) : endsLiteral c = false := by
  have all : Literal.bareWords.all fun word => word.toList.all fun c => !endsLiteral c := by decide
  simpa using List.all_eq_true.mp (List.all_eq_true.mp all word bare) c member

private theorem endsLiteral_of_mem_numeral {n : Numeral} {c : Char} (member : c ∈ n.chars) :
    endsLiteral c = false := by
  rcases Numeral.mem_chars member with mark | ⟨d, rfl⟩
  · have all : ['-', '+', '.', 'e'].all fun c => !endsLiteral c := by decide
    simpa using List.all_eq_true.mp all c mark
  · exact endsLiteral_toChar d

theorem endsLiteral_of_mem_chars {l : Literal} {c : Char} (member : c ∈ l.chars) :
    endsLiteral c = false := by
  rcases l.chars_cases with ⟨word, bare, form⟩ | ⟨n, form⟩
  · exact endsLiteral_of_mem_bareWord bare (form ▸ member)
  · exact endsLiteral_of_mem_numeral (form ▸ member)

theorem run_literal {cs : List Char} (open_ : ∀ c ∈ cs, endsLiteral c = false) (rest : List Char) :
    run limits ⟨ts, .literal gathered⟩ (cs ++ rest) =
      run limits ⟨ts, .literal (cs.reverse ++ gathered)⟩ rest := by
  induction cs generalizing gathered with
  | nil => rfl
  | cons c cs ih =>
    have first := open_ c List.mem_cons_self
    simp [run, step, first, ih fun c member => open_ c (List.mem_cons_of_mem _ member)]

theorem stepBetween_of_not_ends {c : Char} (open_ : endsLiteral c = false) :
    stepBetween ts c = ⟨ts, .literal [c]⟩ := by
  simp only [endsLiteral, Bool.or_eq_false_iff, decide_eq_false_iff_not, Option.isSome_eq_false_iff,
    Option.isNone_iff_eq_none] at open_
  obtain ⟨⟨blank, quote⟩, none⟩ := open_
  simp [stepBetween, blank, quote, none]

private theorem outcome_literal (room : Scientific.exactWidth ≤ limits.digits) {l : Literal}
    (fits : l.Fits limits.digits) {rest : List Char} (ended : ∀ c ∈ rest.head?, endsLiteral c) :
    outcome limits ⟨ts, .between⟩ (l.chars ++ rest) =
      outcome limits ⟨.literal l :: ts, .between⟩ rest := by
  have read := Literal.read?_chars room fits
  have some_char : l.chars ≠ [] := by
    intro none
    rw [none] at read
    cases read
  have text : run limits ⟨ts, .between⟩ (l.chars ++ rest) =
      run limits ⟨ts, .literal l.chars.reverse⟩ rest := by
    have open_ := @endsLiteral_of_mem_chars l
    obtain ⟨c, cs, form⟩ := List.exists_cons_of_ne_nil some_char
    rw [form] at open_ ⊢
    have first : step limits ⟨ts, .between⟩ c = some ⟨ts, .literal [c]⟩ :=
      congrArg some (stepBetween_of_not_ends (open_ List.mem_cons_self))
    rw [List.cons_append, run, first, Option.bind_some,
      run_literal fun c member => open_ (List.mem_cons_of_mem _ member), List.reverse_cons]
  rw [outcome, text]
  cases rest with
  | nil => simp [outcome, run, finish, read]
  | cons c rest => simp [outcome, run, step, ended c rfl, read]

private theorem run_token {t : Token} (other : t.isLiteral = false) (rest : List Char) :
    run limits ⟨ts, .between⟩ (t.chars ++ rest) = run limits ⟨t :: ts, .between⟩ rest := by
  cases t with
  | string s => exact run_stringChars s rest
  | literal l => cases other
  | _ => rfl

private theorem endsLiteral_of_token {t : Token} (other : t.isLiteral = false) (rest : List Char) :
    ∀ c ∈ (t.chars ++ rest).head?, endsLiteral c := by
  cases t with
  | literal l => cases other
  | _ => exact fun c first => Option.some.inj first ▸ rfl

private theorem outcome_tokens (room : Scientific.exactWidth ≤ limits.digits) (more : List Token)
    (apart : more.IsChain Token.Apart) (fits : ∀ t ∈ more, t.Fits limits.digits) :
    outcome limits ⟨ts, .between⟩ (more.flatMap Token.chars) = some (ts.reverse ++ more) := by
  induction more generalizing ts with
  | nil => simp [outcome, run, finish]
  | cons t more ih =>
    have rest := @ih (t :: ts) apart.tail fun u member => fits u (List.mem_cons_of_mem _ member)
    rw [List.reverse_cons, List.append_assoc, List.singleton_append] at rest
    rw [List.flatMap_cons, ← rest]
    cases kind : t.isLiteral with
    | false => rw [outcome, run_token kind, outcome]
    | true =>
      obtain ⟨l, rfl⟩ : ∃ l, t = .literal l := by
        cases t with
        | literal l => exact ⟨l, rfl⟩
        | _ => cases kind
      -- the token after a literal is none, so its first character ends the literal
      refine outcome_literal room (fits _ List.mem_cons_self) ?_
      cases more with
      | nil => simp
      | cons u more =>
        have other : u.isLiteral = false := by
          simpa using (List.isChain_cons_cons.mp apart).1 kind
        exact endsLiteral_of_token other _

end Lexer

/-- The text of a list of tokens, no two literals of which stand side by side, is read as this
list. -/
theorem tokens?_flatMap_chars {limits : Limits} (room : Scientific.exactWidth ≤ limits.digits)
    {ts : List Token} (apart : ts.IsChain Token.Apart) (fits : ∀ t ∈ ts, t.Fits limits.digits) :
    tokens? limits (ts.flatMap Token.chars) = some ts :=
  Lexer.outcome_tokens room ts apart fits

namespace Lexer

variable {limits : Limits}

private theorem isLiteral_of_punctuation? {c : Char} {t : Token} (found : punctuation? c = some t) :
    t.isLiteral = false := by
  unfold punctuation? at found
  split_ifs at found
  all_goals
    cases found
    rfl

theorem fits_stepBetween {ts : List Token} (fits : ∀ t ∈ ts, t.Fits limits.digits) (c : Char) :
    ∀ t ∈ (stepBetween ts c).tokens, t.Fits limits.digits := by
  unfold stepBetween
  split_ifs with blank quote
  · exact fits
  · exact fits
  · split
    · rename_i t found
      exact List.forall_mem_cons.mpr
        ⟨Token.fits_of_not_literal (isLiteral_of_punctuation? found) _, fits⟩
    · exact fits

private theorem fits_step {lexer next : Lexer} {c : Char}
    (fits : ∀ t ∈ lexer.tokens, t.Fits limits.digits)
    (taken : step limits lexer c = some next) : ∀ t ∈ next.tokens, t.Fits limits.digits := by
  obtain ⟨ts, mode⟩ := lexer
  cases mode with
  | between =>
    cases taken
    exact fits_stepBetween fits c
  | literal gathered =>
    simp only [step] at taken
    split_ifs at taken with ended
    · obtain ⟨l, read, rfl⟩ := Option.map_eq_some_iff.mp taken
      have more : ∀ t ∈ .literal l :: ts, t.Fits limits.digits :=
        List.forall_mem_cons.mpr ⟨Literal.fits_of_read? read, fits⟩
      exact fits_stepBetween more c
    · cases taken
      exact fits
  | string gathered =>
    simp only [step] at taken
    split_ifs at taken with quote
    · cases taken
      exact List.forall_mem_cons.mpr ⟨trivial, fits⟩
    all_goals
      cases taken
      exact fits
  | escape gathered =>
    simp only [step] at taken
    split_ifs at taken with unit
    · cases taken
      exact fits
    · obtain ⟨e, -, rfl⟩ := Option.map_eq_some_iff.mp taken
      exact fits
  | unit gathered high read number =>
    obtain ⟨digit, -, taken⟩ := Option.bind_eq_some_iff.mp taken
    split_ifs at taken with last
    · obtain ⟨mode, -, rfl⟩ := Option.map_eq_some_iff.mp taken
      exact fits
    · cases taken
      exact fits
  | pair gathered high =>
    simp only [step] at taken
    split_ifs at taken
    cases taken
    exact fits
  | pairEscape gathered high =>
    simp only [step] at taken
    split_ifs at taken
    cases taken
    exact fits

private theorem fits_run {lexer final : Lexer} {cs : List Char}
    (fits : ∀ t ∈ lexer.tokens, t.Fits limits.digits) (taken : run limits lexer cs = some final) :
    ∀ t ∈ final.tokens, t.Fits limits.digits := by
  induction cs generalizing lexer with
  | nil => exact Option.some.inj taken ▸ fits
  | cons c cs ih =>
    obtain ⟨next, first, rest⟩ := Option.bind_eq_some_iff.mp taken
    exact ih (fits_step fits first) rest

end Lexer

theorem fits_of_tokens? {limits : Limits} {cs : List Char} {ts : List Token}
    (read : tokens? limits cs = some ts) : ∀ t ∈ ts, t.Fits limits.digits := by
  obtain ⟨final, taken, finished⟩ := Option.bind_eq_some_iff.mp read
  have fits : ∀ t ∈ final.tokens, t.Fits limits.digits :=
    Lexer.fits_run (fun t member => absurd member List.not_mem_nil) taken
  unfold Lexer.finish at finished
  split at finished
  · cases finished
    exact fun t member => fits t (List.mem_reverse.mp member)
  · obtain ⟨l, last, rfl⟩ := Option.map_eq_some_iff.mp finished
    intro t member
    rcases List.mem_cons.mp (List.mem_reverse.mp member) with rfl | member
    · exact Literal.fits_of_read? last
    · exact fits t member
  · cases finished

end GameRelay.Json
