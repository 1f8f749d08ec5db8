import GameRelay.Text.Hex
import GameRelay.Text.Printable

/-!
# Quoted text

Texts and bytes as they appear in records: in single quotes, or in double quotes when that saves
escapes. Inside the quotes stand printable characters only; everything else, the quote in use and
the backslash are escaped, so that the text between the quotes says exactly what was quoted.
-/

set_option autoImplicit false
set_option relaxedAutoImplicit false

namespace GameRelay.Text

/-- The quote to put around characters: the single one, unless they hold it and not the double
one. -/
def quoteFor (cs : List Char) : Char :=
  if cs.contains '\'' && !cs.contains '"' then '"' else '\''

def quotedChar (quote c : Char) : List Char :=
  if c = quote ∨ c = '\\' then ['\\', c]
  else if c = '\n' then ['\\', 'n']
  else if c = '\r' then ['\\', 'r']
  else if c = '\t' then ['\\', 't']
  else if isPrintable c then [c]
  else if c.toNat < 0x100 then '\\' :: 'x' :: hexDigits 2 c.toNat
  else if c.toNat < 0x10000 then '\\' :: 'u' :: hexDigits 4 c.toNat
  else '\\' :: 'U' :: hexDigits 8 c.toNat

def quoteChars (cs : List Char) : List Char :=
  let quote := quoteFor cs
  quote :: (cs.flatMap (quotedChar quote) ++ [quote])

def quote (s : String) : String := String.ofList (quoteChars s.toList)

/-- A byte between quotes. Bytes are shown as the ASCII characters that they are. -/
def quotedByte (quote : Char) (b : UInt8) : List Char :=
  let c := Char.ofNat b.toNat
  if c = quote ∨ c = '\\' then ['\\', c]
  else if c = '\n' then ['\\', 'n']
  else if c = '\r' then ['\\', 'r']
  else if c = '\t' then ['\\', 't']
  else if 32 ≤ b.toNat ∧ b.toNat < 127 then [c]
  else '\\' :: 'x' :: hexDigits 2 b.toNat

def quoteBytes (bytes : List UInt8) : String :=
  let quote := quoteFor (bytes.map fun b => Char.ofNat b.toNat)
  String.ofList ('b' :: quote :: (bytes.flatMap (quotedByte quote) ++ [quote]))

end GameRelay.Text
