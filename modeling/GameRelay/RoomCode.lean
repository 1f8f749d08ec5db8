import GameRelay.Decimal.Binary64

/-!
# Room codes

A room code is a short text over digits and lower-case letters. A random code takes one draw from
the unit interval for each of its places; a source of codes is a list that is handed out in turn,
or such draws. A source that has run out fails.
-/

set_option autoImplicit false
set_option relaxedAutoImplicit false

namespace GameRelay

namespace RoomCode

def alphabet : List Char := "0123456789abcdefghijklmnopqrstuvwxyz".toList

/-- The place in the alphabet that a draw from the unit interval picks. -/
def pick (draw : Decimal.Binary64) : Fin 36 :=
  ⟨min (draw.scale 36).integerPart 35, by omega⟩

def letter (place : Fin 36) : Char := alphabet[place]

/-- The code of a row of places. -/
def ofPlaces (places : List (Fin 36)) : String := String.ofList (places.map letter)

/-- The number of places in a code when the settings ask for some length. A negative length asks
for none; a length has to be a signed number of 64 bits. -/
def places? (length : Int) : Option Nat :=
  if -(Nat.pow 2 63 : Int) ≤ length ∧ length < Nat.pow 2 63 then some length.toNat else none

def defaultLength : Int := 6

end RoomCode

inductive SourceFault
  | codesExhausted
  | drawsExhausted
  | lengthOutOfRange
  deriving DecidableEq

def SourceFault.message : SourceFault → String
  | .codesExhausted => "codes exhausted"
  | .drawsExhausted => "draws exhausted"
  | .lengthOutOfRange => "Python int too large to convert to C ssize_t"

inductive CodeSource
  | listed (codes : List String)
  /-- Random codes of some length, made from places of the alphabet drawn in turn. -/
  | random (length : Int) (draws : List (Fin 36))
  deriving DecidableEq

namespace CodeSource

/-- How much is left in a source. -/
def supply : CodeSource → Nat
  | .listed codes => codes.length
  | .random _ draws => draws.length

/-- The next code, and the source after it. A source that runs out in the middle of a code has
lost the draws that it took; one whose length is out of range takes none. -/
def next : CodeSource → Except SourceFault String × CodeSource
  | .listed [] => (.error .codesExhausted, .listed [])
  | .listed (code :: rest) => (.ok code, .listed rest)
  | .random length draws =>
    match RoomCode.places? length with
    | none => (.error .lengthOutOfRange, .random length draws)
    | some n =>
      if n ≤ draws.length then
        (.ok (RoomCode.ofPlaces (draws.take n)), .random length (draws.drop n))
      else (.error .drawsExhausted, .random length [])

/-- How a search for a free code ends: with a code, with a source that has run out, or never,
because the source gives the same taken code for ever. -/
inductive Outcome
  | found (code : String)
  | failed (fault : SourceFault)
  | endless
  deriving DecidableEq

/-- A search for a free code: the taken codes met on the way, how it ends, and the source after
it. -/
structure Search where
  collisions : List String
  outcome : Outcome
  rest : CodeSource
  deriving DecidableEq

/-- Takes codes until one is free. -/
def search (taken : String → Bool) (source : CodeSource) : Search :=
  match source.next with
  | (.error fault, rest) => ⟨[], .failed fault, rest⟩
  | (.ok code, rest) =>
    if taken code then
      if rest.supply < source.supply then
        let later := search taken rest
        { later with collisions := code :: later.collisions }
      else ⟨[code], .endless, rest⟩
    else ⟨[], .found code, rest⟩
termination_by source.supply

end CodeSource

end GameRelay
