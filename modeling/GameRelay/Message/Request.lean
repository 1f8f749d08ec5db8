import GameRelay.Message.Frame

/-!
# Requests

A client asks to host a room, to take a seat in one, or to have an input relayed. A request is an
object that says so under `type`; fields that the request does not use are ignored. A frame that
is no request is rejected for exactly one reason.
-/

set_option autoImplicit false
set_option relaxedAutoImplicit false

namespace GameRelay

open Json

/-- A seat in a room that somebody else hosts. -/
inductive Seat
  | player
  | spectator
  deriving DecidableEq

def Seat.requestType : Seat → String
  | .player => "join"
  | .spectator => "spectate"

/-- The two spellings of the field that holds a room code. -/
inductive CodeKey
  | camel
  | snake
  deriving DecidableEq

def CodeKey.name : CodeKey → String
  | .camel => "roomCode"
  | .snake => "room_code"

/-- What a client asks for. An input may bring a value under `input` and one under `state`. -/
inductive Request
  | host
  | seat (seat : Seat) (code : String)
  | input (input : Option Value) (state : Option Value)
  deriving DecidableEq

inductive Rejection
  /-- The frame is not one JSON value within the limits. -/
  | notJson
  | notObject
  | typeMissing
  /-- The `type` is none of the four. -/
  | typeUnknown
  | codeMissing (seat : Seat)
  /-- A request for a seat has something else than a string as room code. -/
  | codeNotString (seat : Seat) (key : CodeKey)
  deriving DecidableEq

namespace Rejection

def label : Rejection → String
  | .notJson => "json_invalid"
  | .notObject => "dict_type"
  | .typeMissing => "union_tag_not_found"
  | .typeUnknown => "union_tag_invalid"
  | .codeMissing _ => "missing"
  | .codeNotString _ _ => "string_type"

def location : Rejection → List String
  | .codeMissing seat => [seat.requestType, CodeKey.camel.name]
  | .codeNotString seat key => [seat.requestType, key.name]
  | _ => []

end Rejection

namespace Request

/-- The room code of a request: `roomCode` counts when it is there, otherwise `room_code`. -/
def codeField? (fields : List (String × Value)) : Option (CodeKey × Value) :=
  match Table.find? fields CodeKey.camel.name with
  | some v => some (.camel, v)
  | none => (Table.find? fields CodeKey.snake.name).map fun v => (.snake, v)

def ofSeat (seat : Seat) (fields : List (String × Value)) : Except Rejection Request :=
  match codeField? fields with
  | none => .error (.codeMissing seat)
  | some (_, .string code) => .ok (.seat seat code)
  | some (key, _) => .error (.codeNotString seat key)

def ofFields (fields : List (String × Value)) : Except Rejection Request :=
  match Table.find? fields "type" with
  | none => .error .typeMissing
  | some (.string kind) =>
    if kind = "host" then .ok .host
    else if kind = Seat.player.requestType then ofSeat .player fields
    else if kind = Seat.spectator.requestType then ofSeat .spectator fields
    else if kind = "input" then
      .ok (.input (Table.find? fields "input") (Table.find? fields "state"))
    else .error .typeUnknown
  | some _ => .error .typeUnknown

def ofValue : Value → Except Rejection Request
  | .object fields => ofFields fields
  | _ => .error .notObject

def ofFrame (frame : Frame) : Except Rejection Request :=
  match frame.value? with
  | some v => ofValue v
  | none => .error .notJson

/-- What an input means when a player sends it. -/
def playerPayload (input : Option Value) : Value := input.getD .null

/-- What an input means when a host sends it: its state when it has one, otherwise its input. -/
def hostPayload (input state : Option Value) : Value :=
  match state with
  | some v => v
  | none => input.getD .null

/-- The request as an object with all fields that it uses. -/
def toValue : Request → Value
  | .host => .object [("type", .string "host")]
  | .seat place code =>
    .object [("type", .string place.requestType), (CodeKey.snake.name, .string code)]
  | .input move state =>
    .object [("type", .string "input"), ("input", move.getD .null), ("state", state.getD .null)]

/-- The names of the fields that the client gave, in alphabetical order. -/
def given : Request → List String
  | .host => ["type"]
  | .seat _ _ => [CodeKey.snake.name, "type"]
  | .input move state =>
    (if move.isSome then ["input"] else []) ++ (if state.isSome then ["state"] else []) ++ ["type"]

end Request

end GameRelay
