import GameRelay.Json.Token

/-!
# Reading tokens

The lexer takes a text one character at a time. Outside strings it gathers a literal until a
blank, a bracket, a separator or a quote ends it; inside strings it undoes escapes, where an
escaped high surrogate has to be followed at once by an escaped low one. A step that has no
meaning ends the reading.
-/

set_option autoImplicit false
set_option relaxedAutoImplicit false

namespace GameRelay.Json

/-- Where in a text the lexer stands. Characters gathered so far are kept last first. -/
inductive Mode
  | between
  | literal (gathered : List Char)
  | string (gathered : List Char)
  | escape (gathered : List Char)
  /-- In the four digits of an escaped code unit, after the high surrogate `high` if any. -/
  | unit (gathered : List Char) (high : Option Nat) (read : Nat) (number : Nat)
  | pair (gathered : List Char) (high : Nat)
  | pairEscape (gathered : List Char) (high : Nat)

/-- The tokens read so far, last first, and where the lexer stands. -/
structure Lexer where
  tokens : List Token
  mode : Mode

namespace Lexer

def start : Lexer := ⟨[], .between⟩

/-- The characters that may stand between tokens. -/
def isBlank (c : Char) : Bool := c = ' ' ∨ c = '\t' ∨ c = '\n' ∨ c = '\r'

/-- The tokens that are one character. -/
def punctuation? (c : Char) : Option Token :=
  if c = '[' then some .openBracket
  else if c = ']' then some .closeBracket
  else if c = '\x7b' then some .openBrace
  else if c = '\x7d' then some .closeBrace
  else if c = ',' then some .comma
  else if c = ':' then some .colon
  else none

def stepBetween (tokens : List Token) (c : Char) : Lexer :=
  if isBlank c then ⟨tokens, .between⟩
  else if c = '"' then ⟨tokens, .string []⟩
  else match punctuation? c with
    | some t => ⟨t :: tokens, .between⟩
    | none => ⟨tokens, .literal [c]⟩

def endsLiteral (c : Char) : Bool := isBlank c || c = '"' || (punctuation? c).isSome

def escaped? (c : Char) : Option Char :=
  if c = '"' then some '"'
  else if c = '\\' then some '\\'
  else if c = '/' then some '/'
  else if c = 'b' then some '\x08'
  else if c = 'f' then some '\x0c'
  else if c = 'n' then some '\n'
  else if c = 'r' then some '\r'
  else if c = 't' then some '\t'
  else none

def isHighSurrogate (n : Nat) : Bool := 0xD800 ≤ n ∧ n < 0xDC00

def isLowSurrogate (n : Nat) : Bool := 0xDC00 ≤ n ∧ n < 0xE000

/-- What follows a complete escaped code unit. -/
def afterUnit (gathered : List Char) (high : Option Nat) (number : Nat) : Option Mode :=
  match high with
  | some h =>
    if isLowSurrogate number then
      some (.string (Char.ofNat (0x10000 + (h - 0xD800) * 0x400 + (number - 0xDC00)) :: gathered))
    else none
  | none =>
    if isHighSurrogate number then some (.pair gathered number)
    else if isLowSurrogate number then none
    else some (.string (Char.ofNat number :: gathered))

def step (limits : Limits) (lexer : Lexer) (c : Char) : Option Lexer :=
  match lexer with
  | ⟨tokens, .between⟩ => some (stepBetween tokens c)
  | ⟨tokens, .literal gathered⟩ =>
    if endsLiteral c then
      (Literal.read? limits.digits gathered.reverse).map fun l =>
        stepBetween (.literal l :: tokens) c
    else some ⟨tokens, .literal (c :: gathered)⟩
  | ⟨tokens, .string gathered⟩ =>
    if c = '"' then some ⟨.string (String.ofList gathered.reverse) :: tokens, .between⟩
    else if c = '\\' then some ⟨tokens, .escape gathered⟩
    else if c.toNat < 32 then none
    else some ⟨tokens, .string (c :: gathered)⟩
  | ⟨tokens, .escape gathered⟩ =>
    if c = 'u' then some ⟨tokens, .unit gathered none 0 0⟩
    else (escaped? c).map fun e => ⟨tokens, .string (e :: gathered)⟩
  | ⟨tokens, .unit gathered high read number⟩ =>
    (Text.hexValue? c).bind fun digit =>
      let number := 16 * number + digit
      if read = 3 then (afterUnit gathered high number).map fun mode => ⟨tokens, mode⟩
      else some ⟨tokens, .unit gathered high (read + 1) number⟩
  | ⟨tokens, .pair gathered high⟩ =>
    if c = '\\' then some ⟨tokens, .pairEscape gathered high⟩ else none
  | ⟨tokens, .pairEscape gathered high⟩ =>
    if c = 'u' then some ⟨tokens, .unit gathered (some high) 0 0⟩ else none

def run (limits : Limits) (lexer : Lexer) : List Char → Option Lexer
  | [] => some lexer
  | c :: rest => (step limits lexer c).bind fun next => run limits next rest

/-- The tokens at the end of a text, in the order of the text. -/
def finish (limits : Limits) (lexer : Lexer) : Option (List Token) :=
  match lexer.mode with
  | .between => some lexer.tokens.reverse
  | .literal gathered =>
    (Literal.read? limits.digits gathered.reverse).map fun l =>
      (.literal l :: lexer.tokens).reverse
  | _ => none

end Lexer

def tokens? (limits : Limits) (cs : List Char) : Option (List Token) :=
  (Lexer.start.run limits cs).bind (Lexer.finish limits)

end GameRelay.Json
