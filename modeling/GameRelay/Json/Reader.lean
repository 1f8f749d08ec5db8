import GameRelay.Json.Lexer

/-!
# Reading values

A value is put together from tokens with a stack of the brackets that are still open. Each state
of the assembly says what may come next; a token that may not come ends the reading. A value may
begin only where at most `Limits.depth` brackets are open. When a key comes twice in one object
the last value counts, at the place of the first.
-/

set_option autoImplicit false
set_option relaxedAutoImplicit false

namespace GameRelay.Json

/-- A bracket that is still open, with what it holds so far. -/
inductive Bracket
  | array (items : List Value)
  /-- The fields of an object and the key whose value is being read. -/
  | object (fields : List (String × Value)) (key : String)

/-- What has been read and what may come next. The open brackets stand innermost first. -/
inductive Assembly
  | value (outer : List Bracket)
  /-- An array has been opened: a value or the closing bracket has to come. -/
  | firstItem (outer : List Bracket)
  /-- An object has been opened: a key or the closing brace has to come. -/
  | firstKey (outer : List Bracket)
  | key (fields : List (String × Value)) (outer : List Bracket)
  | colon (fields : List (String × Value)) (key : String) (outer : List Bracket)
  | complete (outer : List Bracket) (value : Value)

namespace Assembly

def beginValue (limits : Limits) (outer : List Bracket) (t : Token) : Option Assembly :=
  if outer.length ≤ limits.depth then
    match t with
    | .openBracket => some (.firstItem outer)
    | .openBrace => some (.firstKey outer)
    | .string s => some (.complete outer (.string s))
    | .literal l => some (.complete outer l.toValue)
    | _ => none
  else none

def step (limits : Limits) : Assembly → Token → Option Assembly
  | .value outer, t => beginValue limits outer t
  | .firstItem outer, .closeBracket => some (.complete outer (.array []))
  | .firstItem outer, t => beginValue limits (.array [] :: outer) t
  | .firstKey outer, .closeBrace => some (.complete outer (.object []))
  | .firstKey outer, .string s => some (.colon [] s outer)
  | .firstKey _, _ => none
  | .key fields outer, .string s => some (.colon fields s outer)
  | .key _ _, _ => none
  | .colon fields k outer, .colon => some (.value (.object fields k :: outer))
  | .colon _ _ _, _ => none
  | .complete (.array items :: outer) v, .comma => some (.value (.array (v :: items) :: outer))
  | .complete (.array items :: outer) v, .closeBracket =>
    some (.complete outer (.array (v :: items).reverse))
  | .complete (.object fields k :: outer) v, .comma =>
    some (.key (Table.put fields k v) outer)
  | .complete (.object fields k :: outer) v, .closeBrace =>
    some (.complete outer (.object (Table.put fields k v)))
  | .complete _ _, _ => none

def run (limits : Limits) (assembly : Assembly) : List Token → Option Assembly
  | [] => some assembly
  | t :: rest => (step limits assembly t).bind fun next => run limits next rest

def finish : Assembly → Option Value
  | .complete [] v => some v
  | _ => none

end Assembly

def Value.ofTokens? (limits : Limits) (ts : List Token) : Option Value :=
  ((Assembly.value []).run limits ts).bind Assembly.finish

def Value.read? (limits : Limits) (cs : List Char) : Option Value :=
  (tokens? limits cs).bind (Value.ofTokens? limits)

end GameRelay.Json
