import GameRelay.Decimal.Digits
import GameRelay.Decimal.Shortest

/-!
# Numbers as JSON writes them

A numeral is a sign, a whole part, and optionally a fraction and an exponent. `read?` takes a
text that is one numeral and nothing else; `chars` writes one, with a signed exponent. The module
also fixes how a binary64 number is laid out: positional from `0.0001` up to sixteen whole
digits, with an exponent outside that range, and always so that it is read as no integer.
-/

set_option autoImplicit false
set_option relaxedAutoImplicit false

namespace GameRelay.Json

open Decimal

structure Exponent where
  negative : Bool
  digits : List Digit
  deriving DecidableEq

structure Numeral where
  negative : Bool
  whole : List Digit
  fraction : Option (List Digit)
  exponent : Option Exponent
  deriving DecidableEq

namespace Exponent

def toInt (e : Exponent) : Int :=
  if e.negative then -(value e.digits : Int) else value e.digits

/-- An exponent with its sign and at least two digits. -/
def ofInt (n : Int) : Exponent :=
  let ds := Decimal.digits n.natAbs
  ⟨decide (n < 0), List.replicate (2 - ds.length) 0 ++ ds⟩

/-- Reads what follows the letter of an exponent: a sign may come first, a digit must follow. -/
def read? (cs : List Char) : Option Exponent :=
  let (negative, rest) : Bool × List Char :=
    match cs with
    | '-' :: rest => (true, rest)
    | '+' :: rest => (false, rest)
    | rest => (false, rest)
  match takeDigits rest with
  | (d :: ds, []) => some ⟨negative, d :: ds⟩
  | _ => none

def chars (e : Exponent) : List Char :=
  (if e.negative then '-' else '+') :: digitChars e.digits

end Exponent

namespace Numeral

/-- A whole part has a digit, and no zero in front of another digit. -/
def isWhole : List Digit → Bool
  | [] => false
  | [_] => true
  | d :: _ => d ≠ 0

/-- Reads what follows the whole part and the fraction. -/
def readExponent? (cs : List Char) : Option (Option Exponent) :=
  match cs with
  | [] => some none
  | c :: rest => if c = 'e' ∨ c = 'E' then (Exponent.read? rest).map some else none

def read? (cs : List Char) : Option Numeral :=
  let (negative, unsigned) : Bool × List Char :=
    match cs with
    | '-' :: rest => (true, rest)
    | rest => (false, rest)
  let (whole, rest) := takeDigits unsigned
  if isWhole whole then
    match rest with
    | '.' :: rest =>
      match takeDigits rest with
      | ([], _) => none
      | (d :: ds, rest) =>
        (readExponent? rest).map fun e => ⟨negative, whole, some (d :: ds), e⟩
    | rest => (readExponent? rest).map fun e => ⟨negative, whole, none, e⟩
  else none

def chars (n : Numeral) : List Char :=
  (if n.negative then ['-'] else []) ++ digitChars n.whole ++
    (match n.fraction with
      | some ds => '.' :: digitChars ds
      | none => []) ++
    (match n.exponent with
      | some e => 'e' :: e.chars
      | none => [])

def isInteger (n : Numeral) : Bool := n.fraction.isNone && n.exponent.isNone

def toInt (n : Numeral) : Int :=
  if n.negative then -(value n.whole : Int) else value n.whole

def toBinary64 (n : Numeral) : Binary64 :=
  let fraction := n.fraction.getD []
  let power := match n.exponent with
    | some e => e.toInt
    | none => 0
  Binary64.ofScientific n.negative (value (n.whole ++ fraction)) (power - fraction.length)

def ofInt (n : Int) : Numeral := ⟨decide (n < 0), digits n.natAbs, none, none⟩

def trimZeros (ds : List Digit) : List Digit := (ds.reverse.dropWhile (· = 0)).reverse

/-- Lays out significant digits of which `point` stand before the decimal point. -/
def layOut (negative : Bool) (ds : List Digit) (point : Int) : Numeral :=
  if -4 < point ∧ point ≤ 16 then
    if point ≤ 0 then ⟨negative, [0], some (List.replicate (-point).toNat 0 ++ ds), none⟩
    else
      let whole := ds.take point.toNat
      let fraction := ds.drop point.toNat
      ⟨negative, whole ++ List.replicate (point.toNat - ds.length) 0,
        some (if fraction.isEmpty then [0] else fraction), none⟩
  else
    let fraction := ds.drop 1
    ⟨negative, ds.take 1, if fraction.isEmpty then none else some fraction,
      some (Exponent.ofInt (point - 1))⟩

/-- A decimal without the zeros at its end, laid out. -/
def ofScientific (negative : Bool) (d : Scientific) : Numeral :=
  let ds := digits d.digits
  layOut negative (trimZeros ds) (ds.length + d.exponent)

/-- A decimal with all its digits in front of an exponent. -/
def ofExact (negative : Bool) (d : Scientific) : Numeral :=
  ⟨negative, digits d.digits, none, some (Exponent.ofInt d.exponent)⟩

/-- Whether the text of a numeral is read as that numeral, and this as a given binary64 number. -/
def means (n : Numeral) (x : Binary64) : Bool :=
  decide (read? n.chars = some n) && !n.isInteger && decide (n.toBinary64 = x)

/-- The numeral of the binary64 number with some form: the shortest one that means it. -/
def ofForm (x : Binary64) (negative : Bool) (significand : Nat) (exponent : Int) : Numeral :=
  if significand = 0 then ⟨negative, [0], some [0], none⟩
  else
    match
      Scientific.shortest? (fun d => (ofScientific negative d).means x) significand exponent with
    | some d => ofScientific negative d
    | none => ofExact negative (Scientific.exact significand exponent)

end Numeral

end GameRelay.Json
