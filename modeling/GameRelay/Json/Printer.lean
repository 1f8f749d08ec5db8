import GameRelay.Json.Token

/-!
# Writing values

A value is written as its tokens, one after the other without blanks.
-/

set_option autoImplicit false
set_option relaxedAutoImplicit false

namespace GameRelay.Json

namespace Value

mutual

def tokens : Value → List Token
  | .null => [.literal .null]
  | .bool b => [.literal (.bool b)]
  | .int n => [.literal (.int n)]
  | .float x => [.literal (.float x)]
  | .string s => [.string s]
  | .array [] => [.openBracket, .closeBracket]
  | .array (v :: rest) => .openBracket :: (v.tokens ++ itemTokens rest)
  | .object [] => [.openBrace, .closeBrace]
  | .object ((key, v) :: rest) =>
    .openBrace :: .string key :: .colon :: (v.tokens ++ fieldTokens rest)

def itemTokens : List Value → List Token
  | [] => [.closeBracket]
  | v :: rest => .comma :: (v.tokens ++ itemTokens rest)

def fieldTokens : List (String × Value) → List Token
  | [] => [.closeBrace]
  | (key, v) :: rest => .comma :: .string key :: .colon :: (v.tokens ++ fieldTokens rest)

end

def chars (v : Value) : List Char := v.tokens.flatMap Token.chars

def text (v : Value) : String := String.ofList v.chars

end Value

end GameRelay.Json
