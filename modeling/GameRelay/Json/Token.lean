import GameRelay.Json.Numeral
import GameRelay.Json.Value
import GameRelay.Text.Hex

/-!
# JSON tokens

The units of a JSON text: brackets, the two separators, strings, and the literals, which are the
bare words and the numbers. Each token has one text; between tokens a text may have blanks.
Three bare words stand for the numbers that no numeral writes.
-/

set_option autoImplicit false
set_option relaxedAutoImplicit false

namespace GameRelay.Json

open Decimal

/-- A value that is written as one word or number. -/
inductive Literal
  | null
  | bool (b : Bool)
  | int (n : Int)
  | float (x : Binary64)
  deriving DecidableEq

/-- A unit of a JSON text. -/
inductive Token
  | openBracket
  | closeBracket
  | openBrace
  | closeBrace
  | comma
  | colon
  | string (s : String)
  | literal (l : Literal)
  deriving DecidableEq

/-- How much a reader takes: open brackets around a value, and digits in a whole part. -/
structure Limits where
  depth : Nat
  digits : Nat

namespace Literal

def toValue : Literal → Value
  | .null => .null
  | .bool b => .bool b
  | .int n => .int n
  | .float x => .float x

/-- A number without fraction and exponent is an integer, every other one a binary64 number.
Too long a whole part is refused in both. -/
def ofNumeral? (limit : Nat) (n : Numeral) : Option Literal :=
  if n.whole.length ≤ limit then
    some (if n.isInteger then .int n.toInt else .float n.toBinary64)
  else none

def read? (limit : Nat) (cs : List Char) : Option Literal :=
  if cs = "null".toList then some .null
  else if cs = "true".toList then some (.bool true)
  else if cs = "false".toList then some (.bool false)
  else if cs = "NaN".toList then some (.float .nan)
  else if cs = "Infinity".toList then some (.float (.infinite false))
  else if cs = "-Infinity".toList then some (.float (.infinite true))
  else (Numeral.read? cs).bind (ofNumeral? limit)

def chars : Literal → List Char
  | .null => "null".toList
  | .bool true => "true".toList
  | .bool false => "false".toList
  | .int n => (Numeral.ofInt n).chars
  | .float .nan => "NaN".toList
  | .float (.infinite false) => "Infinity".toList
  | .float (.infinite true) => "-Infinity".toList
  | .float (.finite negative significand exponent canonical) =>
    (Numeral.ofForm (.finite negative significand exponent canonical)
      negative significand exponent).chars

end Literal

/-- A character inside a string: the quote, the backslash and the controls are escaped. -/
def stringChar (c : Char) : List Char :=
  if c = '"' then ['\\', '"']
  else if c = '\\' then ['\\', '\\']
  else if c = '\n' then ['\\', 'n']
  else if c = '\r' then ['\\', 'r']
  else if c = '\t' then ['\\', 't']
  else if c = '\x08' then ['\\', 'b']
  else if c = '\x0c' then ['\\', 'f']
  else if c.toNat < 32 then '\\' :: 'u' :: Text.hexDigits 4 c.toNat
  else [c]

def stringChars (s : String) : List Char :=
  '"' :: (s.toList.flatMap stringChar ++ ['"'])

def Token.chars : Token → List Char
  | .openBracket => ['[']
  | .closeBracket => [']']
  | .openBrace => ['\x7b']
  | .closeBrace => ['\x7d']
  | .comma => [',']
  | .colon => [':']
  | .string s => stringChars s
  | .literal l => l.chars

end GameRelay.Json
