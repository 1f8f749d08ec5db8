import GameRelay.Message.Request
import GameRelay.Proofs.Json.Members

/-!
# What a frame asks for

Whether a frame is a request, which one, and why not otherwise, is settled by the last values under
`type` and the few fields that a request of this type uses. Other fields, and the order of all, make
no difference.
-/

set_option autoImplicit false
set_option relaxedAutoImplicit false

namespace GameRelay

open Json

/-- A room code stands under a spelling of its field; `room_code` counts only when there is no
`roomCode`. -/
def CodeUnder (v code : Value) : CodeKey → Prop
  | .camel => v.field? "roomCode" = some code
  | .snake => v.field? "roomCode" = none ∧ v.field? "room_code" = some code

/-- The four values of `type` that a request can have. -/
def requestTags : List Value :=
  [.string "host", .string "join", .string "spectate", .string "input"]

/-- What a value comes to as a request, case by case. -/
inductive Reads (v : Value) : Except Rejection Request → Prop
  | host (kind : v.field? "type" = some (.string "host")) : Reads v (.ok .host)
  | seat (seat : Seat) (key : CodeKey) (code : String)
      (kind : v.field? "type" = some (.string seat.requestType))
      (named : CodeUnder v (.string code) key) : Reads v (.ok (.seat seat code))
  | input (kind : v.field? "type" = some (.string "input")) :
    Reads v (.ok (.input (v.field? "input") (v.field? "state")))
  | notObject (bare : ∀ fields, v ≠ .object fields) : Reads v (.error .notObject)
  | typeMissing (fields : List (String × Value)) (object : v = .object fields)
      (untyped : v.field? "type" = none) : Reads v (.error .typeMissing)
  | typeUnknown (tag : Value) (kind : v.field? "type" = some tag) (other : tag ∉ requestTags) :
    Reads v (.error .typeUnknown)
  | codeMissing (seat : Seat) (kind : v.field? "type" = some (.string seat.requestType))
      (camel : v.field? "roomCode" = none) (snake : v.field? "room_code" = none) :
    Reads v (.error (.codeMissing seat))
  | codeNotString (seat : Seat) (key : CodeKey) (code : Value)
      (kind : v.field? "type" = some (.string seat.requestType)) (named : CodeUnder v code key)
      (other : ∀ s, code ≠ .string s) : Reads v (.error (.codeNotString seat key))

namespace Request

variable {fields : List (String × Value)} {v : Value}

theorem codeField?_eq_some_iff {key : CodeKey} {code : Value} :
    codeField? fields = some (key, code) ↔ CodeUnder (.object fields) code key := by
  have camel : Value.field? (.object fields) "roomCode" = Table.find? fields "roomCode" := rfl
  have snake : Value.field? (.object fields) "room_code" = Table.find? fields "room_code" := rfl
  unfold codeField? CodeUnder
  cases first : Table.find? fields "roomCode" with
  | some w => cases key <;> simp [CodeKey.name, camel, first]
  | none => cases key <;> simp [CodeKey.name, camel, snake, first]

theorem codeField?_eq_none_iff :
    codeField? fields = none ↔
      Table.find? fields "roomCode" = none ∧ Table.find? fields "room_code" = none := by
  unfold codeField?
  cases first : Table.find? fields "roomCode" <;> simp [CodeKey.name, first]

theorem reads_ofSeat (seat : Seat)
    (kind : Value.field? (.object fields) "type" = some (.string seat.requestType)) :
    Reads (.object fields) (ofSeat seat fields) := by
  unfold ofSeat
  split
  · rename_i neither
    obtain ⟨camel, snake⟩ := codeField?_eq_none_iff.mp neither
    exact .codeMissing seat kind camel snake
  · rename_i key code named
    exact .seat seat key code kind (codeField?_eq_some_iff.mp named)
  · rename_i key code other named
    exact .codeNotString seat key code kind (codeField?_eq_some_iff.mp named) other

/-- What a value comes to is in the table. -/
theorem reads_ofValue (v : Value) : Reads v (ofValue v) := by
  cases v with
  | object fields =>
    rw [ofValue, ofFields]
    cases kind : Table.find? fields "type" with
    | none => exact .typeMissing fields rfl kind
    | some tag =>
      cases tag with
      | string name =>
        simp only
        split_ifs with host join spectate input
        · exact .host (host ▸ kind)
        · exact reads_ofSeat .player (join ▸ kind)
        · exact reads_ofSeat .spectator (spectate ▸ kind)
        · exact .input (input ▸ kind)
        · refine .typeUnknown _ kind ?_
          simpa [requestTags, Seat.requestType] using And.intro host ⟨join, spectate, input⟩
      | _ => exact .typeUnknown _ kind (by simp [requestTags])
  | _ =>
    refine .notObject ?_
    rintro fields ⟨⟩

theorem ofFields_of_seat (seat : Seat)
    (kind : Table.find? fields "type" = some (.string seat.requestType)) :
    ofFields fields = ofSeat seat fields := by
  cases seat <;> simp [ofFields, kind, Seat.requestType]

private theorem ofFields_of_unknown {tag : Value} (kind : Table.find? fields "type" = some tag)
    (other : tag ∉ requestTags) : ofFields fields = .error .typeUnknown := by
  cases tag with
  | string name =>
    simp only [requestTags, List.mem_cons, Value.string.injEq, List.not_mem_nil, or_false,
      not_or] at other
    obtain ⟨host, join, spectate, input⟩ := other
    simp [ofFields, kind, host, join, spectate, input, Seat.requestType]
  | _ => simp [ofFields, kind]

/-- Whatever is in the table for a value is what it comes to. -/
private theorem ofValue_of_reads {outcome : Except Rejection Request} (reads : Reads v outcome) :
    ofValue v = outcome := by
  have object_of_field {key : String} {w : Value} (found : v.field? key = some w) :
      ∃ fields, v = .object fields := by
    cases v with
    | object fields => exact ⟨fields, rfl⟩
    | _ => cases found
  cases reads with
  | host kind =>
    obtain ⟨fields, rfl⟩ := object_of_field kind
    change Table.find? fields "type" = _ at kind
    simp [ofValue, ofFields, kind]
  | seat seat key code kind named =>
    obtain ⟨fields, rfl⟩ := object_of_field kind
    rw [ofValue, ofFields_of_seat seat kind, ofSeat, codeField?_eq_some_iff.mpr named]
  | input kind =>
    obtain ⟨fields, rfl⟩ := object_of_field kind
    change Table.find? fields "type" = _ at kind
    simp [ofValue, ofFields, kind, Seat.requestType, Value.field?]
  | notObject bare =>
    cases v with
    | object fields => exact absurd rfl (bare fields)
    | _ => rfl
  | typeMissing fields object untyped =>
    subst object
    change Table.find? fields "type" = _ at untyped
    simp [ofValue, ofFields, untyped]
  | typeUnknown tag kind other =>
    obtain ⟨fields, rfl⟩ := object_of_field kind
    exact ofFields_of_unknown kind other
  | codeMissing seat kind camel snake =>
    obtain ⟨fields, rfl⟩ := object_of_field kind
    rw [ofValue, ofFields_of_seat seat kind, ofSeat, codeField?_eq_none_iff.mpr ⟨camel, snake⟩]
  | codeNotString seat key code kind named other =>
    obtain ⟨fields, rfl⟩ := object_of_field kind
    rw [ofValue, ofFields_of_seat seat kind, ofSeat, codeField?_eq_some_iff.mpr named]
    cases code with
    | string s => exact absurd rfl (other s)
    | _ => rfl

theorem ofValue_eq_iff {outcome : Except Rejection Request} :
    ofValue v = outcome ↔ Reads v outcome :=
  ⟨fun same => same ▸ reads_ofValue v, ofValue_of_reads⟩

end Request

theorem Seat.requestType_injective : Function.Injective Seat.requestType := by
  intro one two same
  cases one <;> cases two <;> first | rfl | exact absurd same (by decide)

private theorem CodeKey.name_injective : Function.Injective CodeKey.name := by
  intro one two same
  cases one <;> cases two <;> first | rfl | exact absurd same (by decide)

/-- A rejection for a reason of some name, at some place in the frame. -/
def Fails (outcome : Except Rejection Request) (label : String) (location : List String) : Prop :=
  ∃ why, outcome = .error why ∧ why.label = label ∧ why.location = location

/-- A value comes to the request that its `type` and the fields of this type make, or is rejected
for the one reason why it makes none. -/
structure Decodes (v : Value) (outcome : Except Rejection Request) : Prop where
  accepted : (∃ request, outcome = .ok request) ↔
    v.field? "type" = some (.string "host") ∨ v.field? "type" = some (.string "input") ∨
      ∃ seat key code, v.field? "type" = some (.string (Seat.requestType seat)) ∧
        CodeUnder v (.string code) key
  host : outcome = .ok .host ↔ v.field? "type" = some (.string "host")
  seat : ∀ seat code, outcome = .ok (.seat seat code) ↔
    v.field? "type" = some (.string seat.requestType) ∧ ∃ key, CodeUnder v (.string code) key
  input : ∀ move state, outcome = .ok (.input move state) ↔
    v.field? "type" = some (.string "input") ∧ move = v.field? "input" ∧ state = v.field? "state"
  payload : ∀ move state, outcome = .ok (.input move state) →
    (Request.input move state).toValue = .object [("type", .string "input"),
        ("input", (v.field? "input").getD .null), ("state", (v.field? "state").getD .null)] ∧
      Request.playerPayload move = (v.field? "input").getD .null ∧
      Request.hostPayload move state = (v.field? "state").getD ((v.field? "input").getD .null)
  notObject : Fails outcome "dict_type" [] ↔ ∀ fields, v ≠ .object fields
  typeMissing : Fails outcome "union_tag_not_found" [] ↔
    (∃ fields, v = .object fields) ∧ v.field? "type" = none
  typeUnknown : Fails outcome "union_tag_invalid" [] ↔
    ∃ tag, v.field? "type" = some tag ∧ tag ∉ requestTags
  codeMissing : ∀ seat, Fails outcome "missing" [Seat.requestType seat, "roomCode"] ↔
    v.field? "type" = some (.string seat.requestType) ∧ v.field? "roomCode" = none ∧
      v.field? "room_code" = none
  codeNotString : ∀ seat key,
    Fails outcome "string_type" [Seat.requestType seat, CodeKey.name key] ↔
      v.field? "type" = some (.string seat.requestType) ∧
        ∃ code, CodeUnder v code key ∧ ∀ s, code ≠ .string s
  legible : ¬Fails outcome "json_invalid" []

variable {v : Value}

theorem fails_ofValue_iff {label : String} {location : List String} :
    Fails (Request.ofValue v) label location ↔
      ∃ why, Reads v (.error why) ∧ why.label = label ∧ why.location = location := by
  simp only [Fails, Request.ofValue_eq_iff]

theorem fails_notObject_iff :
    Fails (Request.ofValue v) "dict_type" [] ↔ ∀ fields, v ≠ .object fields := by
  rw [fails_ofValue_iff]
  constructor
  · rintro ⟨why, reads, label, -⟩
    cases reads with
    | notObject bare => exact bare
    | _ => simp [Rejection.label] at label
  · exact fun bare => ⟨_, .notObject bare, rfl, rfl⟩

theorem fails_typeMissing_iff :
    Fails (Request.ofValue v) "union_tag_not_found" [] ↔
      (∃ fields, v = .object fields) ∧ v.field? "type" = none := by
  rw [fails_ofValue_iff]
  constructor
  · rintro ⟨why, reads, label, -⟩
    cases reads with
    | typeMissing fields object untyped => exact ⟨⟨fields, object⟩, untyped⟩
    | _ => simp [Rejection.label] at label
  · rintro ⟨⟨fields, object⟩, untyped⟩
    exact ⟨_, .typeMissing fields object untyped, rfl, rfl⟩

theorem fails_typeUnknown_iff :
    Fails (Request.ofValue v) "union_tag_invalid" [] ↔
      ∃ tag, v.field? "type" = some tag ∧ tag ∉ requestTags := by
  rw [fails_ofValue_iff]
  constructor
  · rintro ⟨why, reads, label, -⟩
    cases reads with
    | typeUnknown tag kind other => exact ⟨tag, kind, other⟩
    | _ => simp [Rejection.label] at label
  · rintro ⟨tag, kind, other⟩
    exact ⟨_, .typeUnknown tag kind other, rfl, rfl⟩

theorem fails_codeMissing_iff (seat : Seat) :
    Fails (Request.ofValue v) "missing" [seat.requestType, "roomCode"] ↔
      v.field? "type" = some (.string seat.requestType) ∧ v.field? "roomCode" = none ∧
        v.field? "room_code" = none := by
  rw [fails_ofValue_iff]
  constructor
  · rintro ⟨why, reads, label, location⟩
    cases reads with
    | codeMissing place kind camel snake =>
      obtain rfl := Seat.requestType_injective (List.head_eq_of_cons_eq location)
      exact ⟨kind, camel, snake⟩
    | _ => simp [Rejection.label] at label
  · rintro ⟨kind, camel, snake⟩
    exact ⟨_, .codeMissing seat kind camel snake, rfl, rfl⟩

theorem fails_codeNotString_iff (seat : Seat) (key : CodeKey) :
    Fails (Request.ofValue v) "string_type" [seat.requestType, key.name] ↔
      v.field? "type" = some (.string seat.requestType) ∧
        ∃ code, CodeUnder v code key ∧ ∀ s, code ≠ .string s := by
  rw [fails_ofValue_iff]
  constructor
  · rintro ⟨why, reads, label, location⟩
    cases reads with
    | codeNotString place spelling code kind named other =>
      obtain rfl := Seat.requestType_injective (List.head_eq_of_cons_eq location)
      obtain rfl := CodeKey.name_injective
        (List.head_eq_of_cons_eq (List.tail_eq_of_cons_eq location))
      exact ⟨kind, code, named, other⟩
    | _ => simp [Rejection.label] at label
  · rintro ⟨kind, code, named, other⟩
    exact ⟨_, .codeNotString seat key code kind named other, rfl, rfl⟩

private theorem decodes_ofValue (v : Value) : Decodes v (Request.ofValue v) where
  accepted := by
    simp only [Request.ofValue_eq_iff]
    constructor
    · rintro ⟨request, reads⟩
      cases reads with
      | host kind => exact .inl kind
      | seat seat key code kind named => exact .inr (.inr ⟨seat, key, code, kind, named⟩)
      | input kind => exact .inr (.inl kind)
    · rintro (kind | kind | ⟨seat, key, code, kind, named⟩)
      · exact ⟨_, .host kind⟩
      · exact ⟨_, .input kind⟩
      · exact ⟨_, .seat seat key code kind named⟩
  host := by
    rw [Request.ofValue_eq_iff]
    constructor
    · rintro ⟨kind⟩
      exact kind
    · exact .host
  seat seat code := by
    rw [Request.ofValue_eq_iff]
    constructor
    · intro reads
      cases reads with
      | seat _ key _ kind named => exact ⟨kind, key, named⟩
    · rintro ⟨kind, key, named⟩
      exact .seat seat key code kind named
  input move state := by
    rw [Request.ofValue_eq_iff]
    constructor
    · intro reads
      cases reads with
      | input kind => exact ⟨kind, rfl, rfl⟩
    · rintro ⟨kind, rfl, rfl⟩
      exact .input kind
  payload move state accepted := by
    rw [Request.ofValue_eq_iff] at accepted
    cases accepted with
    | input kind =>
      refine ⟨rfl, rfl, ?_⟩
      cases v.field? "state" <;> rfl
  notObject := fails_notObject_iff
  typeMissing := fails_typeMissing_iff
  typeUnknown := fails_typeUnknown_iff
  codeMissing := fails_codeMissing_iff
  codeNotString := fails_codeNotString_iff
  legible := by
    rw [fails_ofValue_iff]
    rintro ⟨why, reads, label, -⟩
    cases reads <;> simp [Rejection.label] at label

/-- The keys that a value is looked at under: `type`, and what a request of this type uses. A
`room_code` is not looked at where there is a `roomCode`. -/
def usedKeys (v : Value) : List String :=
  "type" :: match v.field? "type" with
    | some (.string kind) =>
      if kind = "input" then ["input", "state"]
      else if kind = Seat.player.requestType ∨ kind = Seat.spectator.requestType then
        if (v.field? "roomCode").isSome then ["roomCode"] else ["roomCode", "room_code"]
      else []
    | _ => []

private theorem usedKeys_of_input (kind : v.field? "type" = some (.string "input")) :
    usedKeys v = ["type", "input", "state"] := by
  simp [usedKeys, kind]

theorem usedKeys_of_seat (seat : Seat)
    (kind : v.field? "type" = some (.string seat.requestType)) :
    usedKeys v = "type" ::
      if (v.field? "roomCode").isSome then ["roomCode"] else ["roomCode", "room_code"] := by
  cases seat <;> simp [usedKeys, kind, Seat.requestType]

theorem codeUnder_of_agree {w : Value} {seat : Seat} {key : CodeKey} {code : Value}
    (agree : ∀ key ∈ usedKeys v, w.field? key = v.field? key)
    (kind : v.field? "type" = some (.string seat.requestType)) (named : CodeUnder v code key) :
    CodeUnder w code key := by
  rw [usedKeys_of_seat seat kind] at agree
  cases key with
  | camel =>
    have camel : v.field? "roomCode" = some code := named
    rw [camel] at agree
    exact (agree "roomCode" (by simp)).trans camel
  | snake =>
    obtain ⟨camel, snake⟩ := named
    rw [camel] at agree
    exact ⟨(agree "roomCode" (by simp)).trans camel, (agree "room_code" (by simp)).trans snake⟩

private theorem ofValue_of_agree {fields others : List (String × Value)}
    (agree : ∀ key ∈ usedKeys (.object fields),
      Table.find? others key = Table.find? fields key) :
    Request.ofValue (.object others) = Request.ofValue (.object fields) := by
  have same : ∀ key ∈ usedKeys (.object fields),
      Value.field? (.object others) key = Value.field? (.object fields) key := agree
  have tag : Value.field? (.object others) "type" = Value.field? (.object fields) "type" :=
    same "type" List.mem_cons_self
  rw [Request.ofValue_eq_iff]
  have reads := Request.reads_ofValue (.object fields)
  generalize Request.ofValue (.object fields) = outcome at reads ⊢
  cases reads with
  | host kind => exact .host (tag.trans kind)
  | seat seat key code kind named =>
    exact .seat seat key code (tag.trans kind) (codeUnder_of_agree same kind named)
  | input kind =>
    rw [usedKeys_of_input kind] at same
    rw [← same "input" (by simp), ← same "state" (by simp)]
    exact .input (tag.trans kind)
  | notObject bare => exact absurd rfl (bare fields)
  | typeMissing _ _ untyped => exact .typeMissing others rfl (tag.trans untyped)
  | typeUnknown known kind other => exact .typeUnknown known (tag.trans kind) other
  | codeMissing seat kind camel snake =>
    rw [usedKeys_of_seat seat kind, camel] at same
    exact .codeMissing seat (tag.trans kind) ((same "roomCode" (by simp)).trans camel)
      ((same "room_code" (by simp)).trans snake)
  | codeNotString seat key code kind named other =>
    exact .codeNotString seat key code (tag.trans kind) (codeUnder_of_agree same kind named) other

namespace Frame

def Lists (f : Frame) (members : List (String × Value)) : Prop :=
  ∃ s ts, f.text? = some s ∧ tokens? limits s.toList = some ts ∧ Json.Lists limits.inside ts members

theorem value?_eq_object_iff {f : Frame} {fields : List (String × Value)} :
    f.value? = some (.object fields) ↔
      ∃ members, f.Lists members ∧ fields = settle [] members := by
  simp only [value?, Option.bind_eq_some_iff, Value.read?]
  constructor
  · rintro ⟨s, text, ts, lexed, read⟩
    obtain ⟨members, lists, same⟩ := Value.ofTokens?_eq_object_iff.mp read
    exact ⟨members, ⟨s, ts, text, lexed, lists⟩, same⟩
  · rintro ⟨members, ⟨s, ts, text, lexed, lists⟩, rfl⟩
    exact ⟨s, text, ts, lexed, Value.ofTokens?_of_lists lists⟩

theorem Lists.value? {f : Frame} {members : List (String × Value)} (lists : f.Lists members) :
    f.value? = some (.object (settle [] members)) :=
  value?_eq_object_iff.mpr ⟨members, lists, rfl⟩

end Frame

/-- Frames whose last values agree under the keys that are looked at ask for the same. -/
theorem ofFrame_of_agree {f g : Frame} {members others : List (String × Value)}
    (lists : f.Lists members) (also : g.Lists others)
    (agree : ∀ key ∈ usedKeys (.object (settle [] members)),
      lastUnder? others key = lastUnder? members key) :
    Request.ofFrame g = Request.ofFrame f := by
  rw [Request.ofFrame, Request.ofFrame, lists.value?, also.value?]
  refine ofValue_of_agree ?_
  intro key used
  rw [find?_settle, find?_settle]
  exact agree key used

/-- Other frames that ask for the same as a frame that writes an object with some members. -/
structure Unmoved (f : Frame) (v : Value) (members : List (String × Value)) : Prop where
  reordered : (Table.keys members).Nodup → ∀ (g : Frame) (others : List (String × Value)),
    g.Lists others → members.Perm others → Request.ofFrame g = Request.ofFrame f
  padded : ∀ (g : Frame) (others : List (String × Value)), g.Lists others →
    others.filter (fun m => m.1 ∈ usedKeys v) = members.filter (fun m => m.1 ∈ usedKeys v) →
      Request.ofFrame g = Request.ofFrame f
  agreeing : ∀ (g : Frame) (others : List (String × Value)), g.Lists others →
    (∀ key ∈ usedKeys v, lastUnder? others key = lastUnder? members key) →
      Request.ofFrame g = Request.ofFrame f

private theorem unmoved_of_lists {f : Frame} {members : List (String × Value)}
    (lists : f.Lists members) : Unmoved f (.object (settle [] members)) members where
  reordered apart g others also perm :=
    ofFrame_of_agree lists also fun key _ => lastUnder?_of_perm apart perm key
  padded g others also same := by
    refine ofFrame_of_agree lists also ?_
    intro key used
    rw [← lastUnder?_filter others used, same, lastUnder?_filter members used]
  agreeing g others also agree := ofFrame_of_agree lists also agree

/-- A frame that is read comes to what its `type` and the fields of this type make of it, and each
field is the last member with its key. Frames with the same members in another order, or with other
members that are not looked at, come to the same. -/
theorem decodes_ofFrame {f : Frame} {v : Value} (read : f.value? = some v) :
    Decodes v (Request.ofFrame f) ∧
      ∀ fields, v = .object fields → (∃ members, f.Lists members) ∧
        ∀ members, f.Lists members →
          (∀ key, v.field? key = lastUnder? members key) ∧ Unmoved f v members := by
  have outcome : Request.ofFrame f = Request.ofValue v := by rw [Request.ofFrame, read]
  refine ⟨outcome ▸ decodes_ofValue v, ?_⟩
  rintro fields rfl
  obtain ⟨some_members, lists, -⟩ := Frame.value?_eq_object_iff.mp read
  refine ⟨⟨some_members, lists⟩, ?_⟩
  intro members lists
  obtain rfl : fields = settle [] members :=
    Value.object.inj (Option.some.inj (read.symm.trans lists.value?))
  exact ⟨find?_settle members, unmoved_of_lists lists⟩

/-- A request for a seat, with a field that no request uses. -/
def joining : Frame :=
  .text "\x7b\"type\":\"join\",\"roomCode\":\"a\",\"x\":7\x7d"

/-- The same request, with a type and a code that do not count and a number as `room_code`. -/
def joiningAgain : Frame :=
  .text "\x7b\"room_code\":7,\"roomCode\":7, \"roomCode\":\"a\",\"type\":7,\"type\":\"join\"\x7d"

/-- What counts of the two is the same. -/
theorem decodes_joining :
    let v : Value := .object [("type", .string "join"), ("roomCode", .string "a"), ("x", .int 7)]
    joining.value? = some v ∧ Decodes v (.ok (.seat .player "a")) ∧
      Request.ofFrame joiningAgain = .ok (.seat .player "a") := by
  intro v
  have join : Value.ofTokens? Frame.limits.inside [.string "join"] = some (.string "join") := by
    decide +kernel
  have code : Value.ofTokens? Frame.limits.inside [.string "a"] = some (.string "a") := by
    decide +kernel
  have number : Value.ofTokens? Frame.limits.inside [.literal (.int 7)] = some (.int 7) := by
    decide +kernel
  have read : joining.value? = some v := by decide +kernel
  have asks : Request.ofFrame joining = .ok (.seat .player "a") := by decide +kernel
  have lists : joining.Lists [("type", .string "join"), ("roomCode", .string "a"), ("x", .int 7)] :=
    ⟨_, _, rfl, by decide +kernel,
      .filled (.more "type" join (.more "roomCode" code (.last "x" number)))⟩
  have again : joiningAgain.Lists [("room_code", .int 7), ("roomCode", .int 7),
      ("roomCode", .string "a"), ("type", .int 7), ("type", .string "join")] :=
    ⟨_, _, rfl, by decide +kernel, .filled (.more "room_code" number (.more "roomCode" number
      (.more "roomCode" code (.more "type" number (.last "type" join)))))⟩
  obtain ⟨decodes, unmoved⟩ := decodes_ofFrame read
  have agree : ∀ key ∈ usedKeys v,
      lastUnder? [("room_code", .int 7), ("roomCode", .int 7), ("roomCode", .string "a"),
        ("type", .int 7), ("type", .string "join")] key =
      lastUnder? [("type", .string "join"), ("roomCode", .string "a"), ("x", .int 7)] key := by
    decide +kernel
  refine ⟨read, asks ▸ decodes, ?_⟩
  exact (((unmoved _ rfl).2 _ lists).2.agreeing joiningAgain _ again agree).trans asks

end GameRelay
