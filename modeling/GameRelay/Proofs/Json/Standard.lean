import GameRelay.Proofs.Json.Reader

/-!
# Standard texts

The grammar of JSON, and which values are printed in it. Three bare words that the reader takes are
not in the grammar, and they are all that stands between a value and a standard text: a value is
printed in the grammar exactly when every number in it is finite.
-/

set_option autoImplicit false
set_option relaxedAutoImplicit false

namespace GameRelay.Json

open Decimal

namespace Grammar

def isDigit (c : Char) : Bool := decide ('0' ≤ c) && decide (c ≤ '9')

def isHexDigit (c : Char) : Bool :=
  isDigit c || (decide ('a' ≤ c) && decide (c ≤ 'f')) || (decide ('A' ≤ c) && decide (c ≤ 'F'))

def Blank (cs : List Char) : Prop := ∀ c ∈ cs, c ∈ [' ', '\t', '\n', '\r']

def Digits (cs : List Char) : Prop := cs ≠ [] ∧ ∀ c ∈ cs, isDigit c

/-- Digits that begin with a zero only when this is all. -/
def WholePart (cs : List Char) : Prop := Digits cs ∧ (cs.head? = some '0' → cs = ['0'])

def FractionPart (cs : List Char) : Prop := cs = [] ∨ ∃ ds, cs = '.' :: ds ∧ Digits ds

/-- A letter, a sign that may be left out, and digits, or nothing. -/
def ExponentPart (cs : List Char) : Prop :=
  cs = [] ∨ ∃ letter ∈ ['e', 'E'], ∃ sign ∈ [[], ['+'], ['-']], ∃ ds,
    cs = letter :: (sign ++ ds) ∧ Digits ds

def Number (cs : List Char) : Prop :=
  ∃ sign ∈ [[], ['-']], ∃ whole fraction exponent,
    cs = sign ++ (whole ++ (fraction ++ exponent)) ∧
      WholePart whole ∧ FractionPart fraction ∧ ExponentPart exponent

/-- What may stand between the quotes of a string. -/
inductive Inside : List Char → Prop
  | nil : Inside []
  | plain {c : Char} {cs : List Char} (quote : c ≠ '"') (backslash : c ≠ '\\')
      (control : 0x20 ≤ c.toNat) (rest : Inside cs) : Inside (c :: cs)
  | escape {c : Char} {cs : List Char} (letter : c ∈ ['"', '\\', '/', 'b', 'f', 'n', 'r', 't'])
      (rest : Inside cs) : Inside ('\\' :: c :: cs)
  | unit {ds cs : List Char} (four : ds.length = 4) (hex : ∀ d ∈ ds, isHexDigit d)
      (rest : Inside cs) : Inside ('\\' :: 'u' :: (ds ++ cs))

def Quoted (cs : List Char) : Prop := ∃ inside, Inside inside ∧ cs = '"' :: (inside ++ ['"'])

inductive Part
  | value
  | element
  | elements
  | member
  | members

/-- The texts of each part. -/
inductive Derives : Part → List Char → Prop
  | word {word : String} (bare : word ∈ ["null", "true", "false"]) : Derives .value word.toList
  | number {cs : List Char} (number : Number cs) : Derives .value cs
  | string {cs : List Char} (quoted : Quoted cs) : Derives .value cs
  | emptyArray {blank : List Char} (nothing : Blank blank) :
    Derives .value ('[' :: (blank ++ [']']))
  | array {cs : List Char} (elements : Derives .elements cs) : Derives .value ('[' :: (cs ++ [']']))
  | emptyObject {blank : List Char} (nothing : Blank blank) :
    Derives .value ('\x7b' :: (blank ++ ['\x7d']))
  | object {cs : List Char} (members : Derives .members cs) :
    Derives .value ('\x7b' :: (cs ++ ['\x7d']))
  | element {before cs after : List Char} (left : Blank before) (value : Derives .value cs)
      (right : Blank after) : Derives .element (before ++ (cs ++ after))
  | oneElement {cs : List Char} (element : Derives .element cs) : Derives .elements cs
  | moreElements {cs rest : List Char} (element : Derives .element cs)
      (others : Derives .elements rest) : Derives .elements (cs ++ ',' :: rest)
  | member {before key after cs : List Char} (left : Blank before) (quoted : Quoted key)
      (right : Blank after) (element : Derives .element cs) :
    Derives .member (before ++ (key ++ (after ++ ':' :: cs)))
  | oneMember {cs : List Char} (member : Derives .member cs) : Derives .members cs
  | moreMembers {cs rest : List Char} (member : Derives .member cs)
      (others : Derives .members rest) : Derives .members (cs ++ ',' :: rest)

end Grammar

open Grammar

/-- A text of one value, blanks around it allowed. -/
def IsStandard (cs : List Char) : Prop := Derives .element cs

def isFinite : Binary64 → Bool
  | .finite .. => true
  | _ => false

inductive Value.Finite : Value → Prop
  | null : Finite .null
  | bool (b : Bool) : Finite (.bool b)
  | int (n : Int) : Finite (.int n)
  | float {x : Binary64} (finite : isFinite x) : Finite (.float x)
  | string (s : String) : Finite (.string s)
  | array {items : List Value} (finite : ∀ v ∈ items, Finite v) : Finite (.array items)
  | object {fields : List (String × Value)} (finite : ∀ field ∈ fields, Finite field.2) :
    Finite (.object fields)

@[simp] theorem Value.finite_string (s : String) : (Value.string s).Finite := .string s

@[simp] theorem Value.finite_object_iff (fields : List (String × Value)) :
    (Value.object fields).Finite ↔ ∀ field ∈ fields, field.2.Finite := by
  constructor
  · rintro (_ | _ | _ | _ | _ | _ | finite)
    exact finite
  · exact .object

theorem digits_digitChars {ds : List Digit} (some_digit : ds ≠ []) : Digits (digitChars ds) := by
  have all (d : Digit) : isDigit d.toChar := by
    revert d
    decide
  refine ⟨by simpa [digitChars] using some_digit, ?_⟩
  intro c member
  obtain ⟨d, -, rfl⟩ := List.mem_map.mp member
  exact all d

private theorem wholePart_digitChars {ds : List Digit} (whole : Numeral.isWhole ds) :
    WholePart (digitChars ds) := by
  refine ⟨digits_digitChars (Numeral.ne_nil_of_isWhole whole), ?_⟩
  have zero (d : Digit) : d.toChar = '0' → d = 0 := by
    revert d
    decide
  intro first
  match ds with
  | [d] =>
    have same : d.toChar = '0' := Option.some.inj first
    rw [digitChars, List.map_cons, same, List.map_nil]
  | d :: _ :: _ =>
    have same : d.toChar = '0' := Option.some.inj first
    simp [Numeral.isWhole, zero d same] at whole

private theorem exponentPart_chars {e : Exponent} (some_digit : e.digits ≠ []) :
    ExponentPart ('e' :: e.chars) := by
  refine .inr ⟨'e', by decide, [if e.negative then '-' else '+'], ?_, digitChars e.digits, rfl,
    digits_digitChars some_digit⟩
  cases e.negative <;> decide

theorem number_chars {n : Numeral} (wellFormed : n.WellFormed) : Number n.chars := by
  obtain ⟨negative, whole, fraction, exponent⟩ := n
  obtain ⟨whole_ok, fraction_ok, exponent_ok⟩ := wellFormed
  rw [Numeral.chars_eq]
  refine ⟨_, ?_, _, _, _, rfl, wholePart_digitChars whole_ok, ?_, ?_⟩
  · cases negative <;> simp
  · cases fraction with
    | none => exact .inl rfl
    | some ds =>
      have some_digit : ds ≠ [] := by
        rintro rfl
        exact fraction_ok rfl
      exact .inr ⟨digitChars ds, rfl, digits_digitChars some_digit⟩
  · cases exponent with
    | none => exact .inl rfl
    | some e => exact exponentPart_chars (exponent_ok e rfl)

private theorem number_chars_int (n : Int) : Number (Literal.int n).chars := by
  rw [Literal.chars_int]
  exact number_chars (Numeral.wellFormed_ofInt n)

private theorem number_chars_float {x : Binary64} (finite : isFinite x) :
    Number (Literal.float x).chars := by
  cases x with
  | finite negative significand exponent canonical =>
    obtain ⟨read, -, -⟩ := (Numeral.means_iff _ _).mp (Numeral.means_ofForm negative canonical)
    rw [Literal.chars_finite]
    exact number_chars (Numeral.wellFormed_of_read? read)
  | infinite negative => cases finite
  | nan => cases finite

private theorem isHexDigit_hexDigit {n : Nat} (small : n < 16) : isHexDigit (Text.hexDigit n) := by
  have all : ∀ m : Fin 16, isHexDigit (Text.hexDigit m.val) := by decide
  exact all ⟨n, small⟩

private theorem isHexDigit_of_mem_hexDigits {width n : Nat} {d : Char}
    (member : d ∈ Text.hexDigits width n) : isHexDigit d := by
  induction width generalizing n with
  | zero => cases member
  | succ width ih =>
    rcases List.mem_append.mp member with earlier | last
    · exact ih earlier
    · obtain rfl := List.mem_singleton.mp last
      exact isHexDigit_hexDigit (Nat.mod_lt n (by decide))

private theorem inside_stringChar (c : Char) {cs : List Char} (rest : Inside cs) :
    Inside (stringChar c ++ cs) := by
  unfold stringChar
  split_ifs with quote backslash newline home tab backspace feed control
  iterate 7 exact .escape (by decide) rest
  · exact .unit (Text.length_hexDigits 4 _) (fun d => isHexDigit_of_mem_hexDigits) rest
  · exact .plain quote backslash (by omega) rest

theorem quoted_stringChars (s : String) : Quoted (stringChars s) := by
  refine ⟨_, ?_, rfl⟩
  induction s.toList with
  | nil => exact .nil
  | cons c cs ih => exact inside_stringChar c ih

namespace Grammar

theorem blank_nil : Blank [] := nofun

theorem element_of_value {cs : List Char} (value : Derives .value cs) : Derives .element cs := by
  simpa using Derives.element blank_nil value blank_nil

theorem member_of_value {key cs : List Char} (quoted : Quoted key) (value : Derives .value cs) :
    Derives .member (key ++ ':' :: cs) := by
  simpa using Derives.member blank_nil quoted blank_nil (element_of_value value)

private theorem elements_itemTokens {items : List Value}
    (printed : ∀ v ∈ items, Derives .value v.chars) {cs : List Char} (first : Derives .value cs) :
    ∃ rest, (Value.itemTokens items).flatMap Token.chars = rest ++ [']'] ∧
      Derives .elements (cs ++ rest) := by
  induction items generalizing cs with
  | nil =>
    refine ⟨[], rfl, ?_⟩
    rw [List.append_nil]
    exact .oneElement (element_of_value first)
  | cons v items ih =>
    obtain ⟨rest, form, elements⟩ := ih (fun w among => printed w (List.mem_cons_of_mem v among))
      (printed v List.mem_cons_self)
    refine ⟨',' :: (v.chars ++ rest), ?_, .moreElements (element_of_value first) elements⟩
    simp [Value.itemTokens, Token.chars, Value.chars, form]

private theorem members_fieldTokens {fields : List (String × Value)}
    (printed : ∀ field ∈ fields, Derives .value field.2.chars) {cs : List Char}
    (first : Derives .member cs) :
    ∃ rest, (Value.fieldTokens fields).flatMap Token.chars = rest ++ ['\x7d'] ∧
      Derives .members (cs ++ rest) := by
  induction fields generalizing cs with
  | nil =>
    refine ⟨[], rfl, ?_⟩
    rw [List.append_nil]
    exact .oneMember first
  | cons field fields ih =>
    obtain ⟨key, v⟩ := field
    have member := member_of_value (quoted_stringChars key) (printed (key, v) List.mem_cons_self)
    obtain ⟨rest, form, members⟩ :=
      ih (fun other among => printed other (List.mem_cons_of_mem _ among)) member
    refine ⟨',' :: (stringChars key ++ ':' :: v.chars ++ rest), ?_, .moreMembers first members⟩
    simp [Value.fieldTokens, Token.chars, Value.chars, form]

end Grammar

theorem Value.chars_of_tokens {v : Value} {t : Token} (one : v.tokens = [t]) :
    v.chars = t.chars := by
  rw [chars, one, List.flatMap_singleton]

/-- A finite value is printed in the grammar. -/
private theorem derives_chars {v : Value} (finite : v.Finite) : Derives .value v.chars := by
  induction finite with
  | null =>
    have text : Value.null.chars = "null".toList := by decide
    exact text ▸ .word (by decide)
  | bool b =>
    have text : (Value.bool b).chars = (if b then "true" else "false").toList := by
      cases b <;> decide
    exact text ▸ .word (by cases b <;> decide)
  | int n =>
    rw [Value.chars_of_tokens rfl]
    exact .number (number_chars_int n)
  | float finite =>
    rw [Value.chars_of_tokens rfl]
    exact .number (number_chars_float finite)
  | string s =>
    rw [Value.chars_of_tokens rfl]
    exact .string (quoted_stringChars s)
  | @array items finite ih =>
    cases items with
    | nil => exact .emptyArray blank_nil
    | cons v items =>
      obtain ⟨rest, form, elements⟩ := elements_itemTokens
        (fun w among => ih w (List.mem_cons_of_mem v among)) (ih v List.mem_cons_self)
      have text : (Value.array (v :: items)).chars = '[' :: (v.chars ++ rest ++ [']']) := by
        simp [Value.chars, Value.tokens, Token.chars, form]
      rw [text]
      exact .array elements
  | @object fields finite ih =>
    cases fields with
    | nil => exact .emptyObject blank_nil
    | cons field fields =>
      obtain ⟨key, v⟩ := field
      have member := member_of_value (quoted_stringChars key) (ih (key, v) List.mem_cons_self)
      obtain ⟨rest, form, members⟩ := members_fieldTokens
        (fun other among => ih other (List.mem_cons_of_mem _ among)) member
      have text : (Value.object ((key, v) :: fields)).chars =
          '\x7b' :: (stringChars key ++ ':' :: v.chars ++ rest ++ ['\x7d']) := by
        simp [Value.chars, Value.tokens, Token.chars, form]
      rw [text]
      exact .object members

inductive Quoting
  | outside
  | inside
  | escaped

namespace Quoting

def next : Quoting → Char → Quoting
  | .outside, c => if c = '"' then .inside else .outside
  | .inside, c => if c = '"' then .outside else if c = '\\' then .escaped else .inside
  | .escaped, _ => .inside

/-- The characters that a scan meets outside of strings, opening quotes included. -/
def bare : Quoting → List Char → List Char
  | _, [] => []
  | .outside, c :: rest => c :: bare (next .outside c) rest
  | .inside, c :: rest => bare (next .inside c) rest
  | .escaped, c :: rest => bare (next .escaped c) rest

theorem bare_of_not_quote {cs : List Char} (open_ : ∀ c ∈ cs, c ≠ '"') (more : List Char) :
    bare .outside (cs ++ more) = cs ++ bare .outside more := by
  induction cs with
  | nil => rfl
  | cons c cs ih =>
    have other := open_ c List.mem_cons_self
    have rest := ih fun d member => open_ d (List.mem_cons_of_mem c member)
    rw [List.cons_append, bare, next, if_neg other, rest, List.cons_append]

private theorem bare_of_hex {ds : List Char} (hex : ∀ d ∈ ds, isHexDigit d) (more : List Char) :
    bare .inside (ds ++ more) = bare .inside more := by
  induction ds with
  | nil => rfl
  | cons d ds ih =>
    have digit := hex d List.mem_cons_self
    have quote : d ≠ '"' := by
      rintro rfl
      exact absurd digit (by decide)
    have backslash : d ≠ '\\' := by
      rintro rfl
      exact absurd digit (by decide)
    rw [List.cons_append, bare, next, if_neg quote, if_neg backslash]
    exact ih fun e member => hex e (List.mem_cons_of_mem d member)

private theorem bare_of_inside {cs : List Char} (inside : Inside cs) (more : List Char) :
    bare .inside (cs ++ more) = bare .inside more := by
  induction inside with
  | nil => rfl
  | plain quote backslash control rest ih =>
    rw [List.cons_append, bare, next, if_neg quote, if_neg backslash]
    exact ih
  | escape letter rest ih => exact ih
  | unit four hex rest ih =>
    rw [List.cons_append, List.cons_append, List.append_assoc]
    exact (bare_of_hex hex _).trans ih

theorem bare_of_quoted {cs : List Char} (quoted : Quoted cs) (more : List Char) :
    bare .outside (cs ++ more) = '"' :: bare .outside more := by
  obtain ⟨inside, within, rfl⟩ := quoted
  rw [List.cons_append, List.append_assoc, bare]
  exact congrArg (List.cons '"') (bare_of_inside within _)

end Quoting

open Quoting (bare)

/-- A text that adds no letter with which a bare word for an infinite number, or for none, begins
to what is met outside of strings. -/
def Plain (cs : List Char) : Prop :=
  ∀ c ∈ ['N', 'I'], ∀ more, c ∈ bare .outside (cs ++ more) → c ∈ bare .outside more

namespace Plain

theorem append {cs ds : List Char} (first : Plain cs) (second : Plain ds) : Plain (cs ++ ds) := by
  intro c letter more met
  rw [List.append_assoc] at met
  exact second c letter more (first c letter _ met)

theorem of_chars {cs : List Char} (others : ∀ c ∈ cs, c ∉ ['"', 'N', 'I']) : Plain cs := by
  have open_ : ∀ c ∈ cs, c ≠ '"' := by
    rintro c member rfl
    exact others '"' member (by decide)
  intro c letter more met
  rw [Quoting.bare_of_not_quote open_] at met
  rcases List.mem_append.mp met with member | later
  · exact absurd (List.mem_cons_of_mem _ letter) (others c member)
  · exact later

theorem of_quoted {cs : List Char} (quoted : Quoted cs) : Plain cs := by
  intro c letter more met
  rw [Quoting.bare_of_quoted quoted] at met
  rcases List.mem_cons.mp met with rfl | later
  · exact absurd letter (by decide)
  · exact later

theorem of_blank {cs : List Char} (blank : Blank cs) : Plain cs := by
  have apart : ∀ c ∈ [' ', '\t', '\n', '\r'], c ∉ ['"', 'N', 'I'] := by simp
  exact of_chars fun c member => apart c (blank c member)

theorem of_digits {cs : List Char} (digits : Digits cs) : Plain cs := by
  refine of_chars ?_
  intro c member letter
  have digit := digits.2 c member
  have apart : ∀ c ∈ ['"', 'N', 'I'], ¬isDigit c := by simp [isDigit]
  exact apart c letter digit

/-- Neither the marks of a number nor brackets and separators are letters of a bare word. -/
theorem of_mark {c : Char}
    (mark : c ∈ ['-', '+', '.', 'e', 'E', '[', ']', '\x7b', '\x7d', ',', ':']) : Plain [c] := by
  have apart : ∀ c ∈ ['-', '+', '.', 'e', 'E', '[', ']', '\x7b', '\x7d', ',', ':'],
      c ∉ ['"', 'N', 'I'] := by simp
  refine of_chars ?_
  intro d member
  rw [List.mem_singleton.mp member]
  exact apart c mark

theorem nil : Plain [] := of_chars nofun

private theorem of_number {cs : List Char} (number : Number cs) : Plain cs := by
  obtain ⟨sign, signed, whole, fraction, exponent, rfl, ⟨digits, -⟩, pointed, scaled⟩ := number
  have plain_sign : Plain sign := by
    rcases List.mem_cons.mp signed with rfl | one
    · exact nil
    · exact List.mem_singleton.mp one ▸ of_mark (by decide)
  have plain_fraction : Plain fraction := by
    rcases pointed with rfl | ⟨ds, rfl, digits⟩
    · exact nil
    · exact (of_mark (by decide)).append (of_digits digits)
  have plain_exponent : Plain exponent := by
    rcases scaled with rfl | ⟨letter, letters, sign, signs, ds, rfl, digits⟩
    · exact nil
    · have first : Plain [letter] := by
        rcases List.mem_cons.mp letters with rfl | one
        · exact of_mark (by decide)
        · exact List.mem_singleton.mp one ▸ of_mark (by decide)
      have second : Plain sign := by
        simp only [List.mem_cons, List.not_mem_nil, or_false] at signs
        rcases signs with rfl | rfl | rfl
        · exact nil
        · exact of_mark (by decide)
        · exact of_mark (by decide)
      exact first.append (second.append (of_digits digits))
  exact plain_sign.append ((of_digits digits).append (plain_fraction.append plain_exponent))

private theorem of_derives {part : Part} {cs : List Char} (derives : Derives part cs) :
    Plain cs := by
  induction derives with
  | @word word bare =>
    have apart : ["null", "true", "false"].all fun word =>
        word.toList.all fun c => c ∉ ['"', 'N', 'I'] := by decide
    refine of_chars ?_
    intro c member
    simpa using List.all_eq_true.mp (List.all_eq_true.mp apart word bare) c member
  | number number => exact of_number number
  | string quoted => exact of_quoted quoted
  | emptyArray nothing =>
    exact (of_mark (by decide)).append ((of_blank nothing).append (of_mark (by decide)))
  | array elements ih => exact (of_mark (by decide)).append (ih.append (of_mark (by decide)))
  | emptyObject nothing =>
    exact (of_mark (by decide)).append ((of_blank nothing).append (of_mark (by decide)))
  | object members ih => exact (of_mark (by decide)).append (ih.append (of_mark (by decide)))
  | element left value right ih => exact (of_blank left).append (ih.append (of_blank right))
  | oneElement element ih => exact ih
  | moreElements element others first rest =>
    exact first.append ((of_mark (by decide)).append rest)
  | member left quoted right element ih =>
    exact (of_blank left).append ((of_quoted quoted).append
      ((of_blank right).append ((of_mark (by decide)).append ih)))
  | oneMember member ih => exact ih
  | moreMembers member others first rest =>
    exact first.append ((of_mark (by decide)).append rest)

end Plain

theorem bare_literal (l : Literal) (more : List Char) :
    bare .outside (l.chars ++ more) = l.chars ++ bare .outside more := by
  refine Quoting.bare_of_not_quote ?_ more
  rintro c member rfl
  exact absurd (Lexer.endsLiteral_of_mem_chars member) (by decide)

private theorem mem_bare_token {c : Char} (t : Token) {more : List Char}
    (met : c ∈ bare .outside more) : c ∈ bare .outside (t.chars ++ more) := by
  cases t with
  | string s =>
    rw [Token.chars, Quoting.bare_of_quoted (quoted_stringChars s)]
    exact List.mem_cons_of_mem _ met
  | literal l =>
    rw [Token.chars, bare_literal]
    exact List.mem_append_right _ met
  | _ => exact List.mem_cons_of_mem _ met

private theorem mem_bare_tokens {ts : List Token} {l : Literal} (member : .literal l ∈ ts)
    {c : Char} (letter : c ∈ l.chars) : c ∈ bare .outside (ts.flatMap Token.chars) := by
  induction ts with
  | nil => cases member
  | cons t ts ih =>
    rw [List.flatMap_cons]
    rcases List.mem_cons.mp member with rfl | later
    · rw [Token.chars, bare_literal]
      exact List.mem_append_left _ letter
    · exact mem_bare_token t (ih later)

/-- A number that is not finite is written with a letter that no standard text has. -/
private theorem isFinite_of_derives {v : Value} (derives : Derives .element v.chars) {x : Binary64}
    (member : .literal (.float x) ∈ v.tokens) : isFinite x := by
  have none : ∀ c ∈ ['N', 'I'], c ∉ (Literal.float x).chars := by
    intro c letter within
    have met : c ∈ bare .outside (v.chars ++ []) := by
      rw [List.append_nil]
      exact mem_bare_tokens member within
    exact absurd (Plain.of_derives derives c letter [] met) List.not_mem_nil
  cases x with
  | finite => rfl
  | infinite negative => exact absurd (by cases negative <;> decide) (none 'I' (by decide))
  | nan => exact absurd (by decide) (none 'N' (by decide))

mutual

theorem Value.finite_of_tokens : (v : Value) →
    (∀ x, .literal (.float x) ∈ v.tokens → isFinite x) → v.Finite
  | .null, _ => .null
  | .bool b, _ => .bool b
  | .int n, _ => .int n
  | .float x, finite => .float (finite x List.mem_cons_self)
  | .string s, _ => .string s
  | .array items, finite => by
    refine .array (finite_of_itemTokens items ?_)
    intro x member
    cases items with
    | nil => simp [itemTokens] at member
    | cons v items => exact finite x (by simpa [tokens, itemTokens] using member)
  | .object fields, finite => by
    refine .object (finite_of_fieldTokens fields ?_)
    intro x member
    cases fields with
    | nil => simp [fieldTokens] at member
    | cons field fields => exact finite x (by simpa [tokens, fieldTokens] using member)

theorem Value.finite_of_itemTokens : (items : List Value) →
    (∀ x, .literal (.float x) ∈ itemTokens items → isFinite x) → ∀ v ∈ items, v.Finite
  | [], _ => nofun
  | v :: items, finite => by
    refine List.forall_mem_cons.mpr ⟨finite_of_tokens v ?_, finite_of_itemTokens items ?_⟩
    · intro x member
      exact finite x (by simp [itemTokens, member])
    · intro x member
      exact finite x (by simp [itemTokens, member])

theorem Value.finite_of_fieldTokens : (fields : List (String × Value)) →
    (∀ x, .literal (.float x) ∈ fieldTokens fields → isFinite x) →
      ∀ field ∈ fields, field.2.Finite
  | [], _ => nofun
  | (key, v) :: fields, finite => by
    refine List.forall_mem_cons.mpr ⟨finite_of_tokens v ?_, finite_of_fieldTokens fields ?_⟩
    · intro x member
      exact finite x (by simp [fieldTokens, member])
    · intro x member
      exact finite x (by simp [fieldTokens, member])

end

/-- A value is printed as a standard text exactly when every number in it is finite. -/
theorem isStandard_chars_iff (v : Value) : IsStandard v.chars ↔ v.Finite := by
  constructor
  · intro derives
    exact v.finite_of_tokens fun _ => isFinite_of_derives derives
  · intro finite
    exact element_of_value (derives_chars finite)

end GameRelay.Json
