import GameRelay.Json.Printer
import GameRelay.Message.Request

/-!
# Messages

What the relay sends to a client. Each kind of message has its `type` and its fields in a fixed
order. A message can also be built from named fields, which are then checked: the `type` may be
left out, texts have to be strings, payloads may be anything.
-/

set_option autoImplicit false
set_option relaxedAutoImplicit false

namespace GameRelay

open Json

inductive Message
  | roomCreated (code : String)
  | seated (seat : Seat) (code : String)
  | playerJoined (id : String)
  | error (text : String)
  | input (id : String) (payload : Value)
  | state (payload : Value)
  | plain (fields : List (String × Value))
  deriving DecidableEq

def Seat.messageType : Seat → String
  | .player => "joined"
  | .spectator => "spectating"

namespace Message

/-- The object that goes out; the room code stands under the given spelling of its key. -/
def toValue (key : CodeKey) : Message → Value
  | .roomCreated code => .object [("type", .string "room_created"), (key.name, .string code)]
  | .seated place code => .object [("type", .string place.messageType), (key.name, .string code)]
  | .playerJoined id => .object [("type", .string "player_joined"), ("id", .string id)]
  | .error text => .object [("type", .string "error"), ("message", .string text)]
  | .input id payload =>
    .object [("type", .string "input"), ("id", .string id), ("input", payload)]
  | .state payload => .object [("type", .string "state"), ("state", payload)]
  | .plain fields => .object fields

def wire (m : Message) : String := (m.toValue .camel).text

inductive Kind
  | roomCreated
  | seated (seat : Seat)
  | playerJoined
  | error
  | input
  | state
  deriving DecidableEq

inductive Problem
  | wrongType
  | missing
  | notString
  deriving DecidableEq

def Problem.label : Problem → String
  | .wrongType => "literal_error"
  | .missing => "missing"
  | .notString => "string_type"

structure FieldFault where
  field : String
  problem : Problem
  deriving DecidableEq

namespace Kind

def typeName : Kind → String
  | .roomCreated => "room_created"
  | .seated place => place.messageType
  | .playerJoined => "player_joined"
  | .error => "error"
  | .input => "input"
  | .state => "state"

/-- The fields of a kind in alphabetical order. -/
def fieldNames : Kind → List String
  | .roomCreated | .seated _ => [CodeKey.snake.name, "type"]
  | .playerJoined => ["id", "type"]
  | .error => ["message", "type"]
  | .input => ["id", "input", "type"]
  | .state => ["state", "type"]

/-- The fields of a kind that are given, in alphabetical order; a room code counts under either
spelling. -/
def given (kind : Kind) (fields : List (String × Value)) : List String :=
  kind.fieldNames.filter fun name =>
    Table.contains fields name ||
      (name = CodeKey.snake.name && Table.contains fields CodeKey.camel.name)

end Kind

/-- What is wrong with the `type`: nothing when it is left out or the right one. -/
def typeFaults (kind : Kind) (fields : List (String × Value)) : List FieldFault :=
  match Table.find? fields "type" with
  | none => []
  | some (.string s) => if s = kind.typeName then [] else [⟨"type", .wrongType⟩]
  | some _ => [⟨"type", .wrongType⟩]

def textField (fields : List (String × Value)) (name : String) : Except FieldFault String :=
  match Table.find? fields name with
  | none => .error ⟨name, .missing⟩
  | some (.string s) => .ok s
  | some _ => .error ⟨name, .notString⟩

def codeText (fields : List (String × Value)) : Except FieldFault String :=
  match Request.codeField? fields with
  | none => .error ⟨CodeKey.camel.name, .missing⟩
  | some (_, .string code) => .ok code
  | some (key, _) => .error ⟨key.name, .notString⟩

/-- A field that may be anything and is null when it is left out. -/
def payloadField (fields : List (String × Value)) (name : String) : Value :=
  (Table.find? fields name).getD .null

/-- A message with one text, or all that is wrong with its fields. -/
def compose (faults : List FieldFault) (text : Except FieldFault String)
    (build : String → Message) : Except (List FieldFault) Message :=
  match faults, text with
  | [], .ok s => .ok (build s)
  | faults, .ok _ => .error faults
  | faults, .error fault => .error (faults ++ [fault])

def ofFields (kind : Kind) (fields : List (String × Value)) : Except (List FieldFault) Message :=
  let faults := typeFaults kind fields
  match kind with
  | .roomCreated => compose faults (codeText fields) .roomCreated
  | .seated place => compose faults (codeText fields) (.seated place)
  | .playerJoined => compose faults (textField fields "id") .playerJoined
  | .error => compose faults (textField fields "message") .error
  | .input =>
    compose faults (textField fields "id") fun id => .input id (payloadField fields "input")
  | .state => compose faults (.ok "") fun _ => .state (payloadField fields "state")

end Message

end GameRelay
