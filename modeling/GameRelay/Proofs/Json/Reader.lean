import GameRelay.Json.Printer
import GameRelay.Json.Reader
import GameRelay.Proofs.Json.Lexer
import GameRelay.Proofs.Table

/-!
# Values read back

The values that a reader can give are those within its limits, with no key twice in one object.
Each of them is read back from its text. What counts is the depth at which a value stands, so a
value may be moved from one object to another.
-/

set_option autoImplicit false
set_option relaxedAutoImplicit false

namespace GameRelay.Json

open Decimal

/-- A value that can stand inside `depth` open brackets: within the limits of the reader, and
with no key twice in one object. -/
inductive Value.Readable (limits : Limits) : Nat → Value → Prop
  | null {depth : Nat} (shallow : depth ≤ limits.depth) : Readable limits depth .null
  | bool {depth : Nat} (shallow : depth ≤ limits.depth) (b : Bool) : Readable limits depth (.bool b)
  | int {depth : Nat} (shallow : depth ≤ limits.depth) {n : Int}
      (short : (digits n.natAbs).length ≤ limits.digits) : Readable limits depth (.int n)
  | float {depth : Nat} (shallow : depth ≤ limits.depth) (x : Binary64) :
      Readable limits depth (.float x)
  | string {depth : Nat} (shallow : depth ≤ limits.depth) (s : String) :
      Readable limits depth (.string s)
  | array {depth : Nat} (shallow : depth ≤ limits.depth) {items : List Value}
      (readable : ∀ v ∈ items, Readable limits (depth + 1) v) : Readable limits depth (.array items)
  | object {depth : Nat} (shallow : depth ≤ limits.depth) {fields : List (String × Value)}
      (apart : (Table.keys fields).Nodup)
      (readable : ∀ field ∈ fields, Readable limits (depth + 1) field.2) :
      Readable limits depth (.object fields)

variable {limits : Limits}

namespace Value

theorem isChain_cons {t : Token} (other : t.isLiteral = false) {ts : List Token}
    (apart : ts.IsChain Token.Apart) : (t :: ts).IsChain Token.Apart := by
  cases ts with
  | nil => exact .singleton t
  | cons u ts => exact .cons_cons (fun literal => by simp [other] at literal) apart

theorem isChain_literal (l : Literal) {ts : List Token}
    (ended : ∀ t ∈ ts.head?, t.isLiteral = false) (apart : ts.IsChain Token.Apart) :
    (.literal l :: ts : List Token).IsChain Token.Apart := by
  cases ts with
  | nil => exact .singleton _
  | cons u ts => exact .cons_cons (fun _ => by simp [ended u rfl]) apart

theorem ended_itemTokens (items : List Value) (rest : List Token) :
    ∀ t ∈ (itemTokens items ++ rest).head?, t.isLiteral = false := by
  cases items <;> simp [itemTokens, Token.isLiteral]

theorem ended_fieldTokens (fields : List (String × Value)) (rest : List Token) :
    ∀ t ∈ (fieldTokens fields ++ rest).head?, t.isLiteral = false := by
  cases fields <;> simp [fieldTokens, Token.isLiteral]

mutual

theorem isChain_tokens : (v : Value) → {rest : List Token} →
    (∀ t ∈ rest.head?, t.isLiteral = false) → rest.IsChain Token.Apart →
    (v.tokens ++ rest).IsChain Token.Apart
  | .null, _, ended, apart => isChain_literal .null ended apart
  | .bool b, _, ended, apart => isChain_literal (.bool b) ended apart
  | .int n, _, ended, apart => isChain_literal (.int n) ended apart
  | .float x, _, ended, apart => isChain_literal (.float x) ended apart
  | .string s, _, _, apart => isChain_cons rfl apart
  | .array [], _, _, apart => isChain_cons rfl (isChain_cons rfl apart)
  | .array (v :: items), rest, _, apart => by
    have inside := isChain_tokens v (ended_itemTokens items rest) (isChain_itemTokens items apart)
    simpa [tokens] using isChain_cons (t := .openBracket) rfl inside
  | .object [], _, _, apart => isChain_cons rfl (isChain_cons rfl apart)
  | .object ((key, v) :: fields), rest, _, apart => by
    have inside :=
      isChain_tokens v (ended_fieldTokens fields rest) (isChain_fieldTokens fields apart)
    simpa [tokens] using isChain_cons (t := .openBrace) rfl
      (isChain_cons (t := .string key) rfl (isChain_cons (t := .colon) rfl inside))

theorem isChain_itemTokens : (items : List Value) → {rest : List Token} →
    rest.IsChain Token.Apart → (itemTokens items ++ rest).IsChain Token.Apart
  | [], _, apart => isChain_cons rfl apart
  | v :: items, rest, apart => by
    have inside := isChain_tokens v (ended_itemTokens items rest) (isChain_itemTokens items apart)
    simpa [itemTokens] using isChain_cons (t := .comma) rfl inside

theorem isChain_fieldTokens : (fields : List (String × Value)) → {rest : List Token} →
    rest.IsChain Token.Apart → (fieldTokens fields ++ rest).IsChain Token.Apart
  | [], _, apart => isChain_cons rfl apart
  | (key, v) :: fields, rest, apart => by
    have inside :=
      isChain_tokens v (ended_fieldTokens fields rest) (isChain_fieldTokens fields apart)
    simpa [fieldTokens] using isChain_cons (t := .comma) rfl
      (isChain_cons (t := .string key) rfl (isChain_cons (t := .colon) rfl inside))

end

private theorem literal_mem_itemTokens {l : Literal} {items : List Value}
    (member : .literal l ∈ itemTokens items) : ∃ v ∈ items, .literal l ∈ v.tokens := by
  induction items with
  | nil => simp [itemTokens] at member
  | cons v items ih =>
    simp only [itemTokens, List.mem_cons, List.mem_append, reduceCtorEq, false_or] at member
    rcases member with first | later
    · exact ⟨v, List.mem_cons_self, first⟩
    · obtain ⟨w, among, inside⟩ := ih later
      exact ⟨w, List.mem_cons_of_mem v among, inside⟩

private theorem literal_mem_fieldTokens {l : Literal} {fields : List (String × Value)}
    (member : .literal l ∈ fieldTokens fields) : ∃ field ∈ fields, .literal l ∈ field.2.tokens := by
  induction fields with
  | nil => simp [fieldTokens] at member
  | cons field fields ih =>
    simp only [fieldTokens, List.mem_cons, List.mem_append, reduceCtorEq, false_or] at member
    rcases member with first | later
    · exact ⟨field, List.mem_cons_self, first⟩
    · obtain ⟨other, among, inside⟩ := ih later
      exact ⟨other, List.mem_cons_of_mem field among, inside⟩

theorem Readable.fits {depth : Nat} {v : Value} (readable : v.Readable limits depth) {l : Literal}
    (member : .literal l ∈ v.tokens) : l.Fits limits.digits := by
  induction readable with
  | null =>
    cases List.mem_singleton.mp member
    trivial
  | bool =>
    cases List.mem_singleton.mp member
    trivial
  | int shallow short =>
    cases List.mem_singleton.mp member
    exact short
  | float =>
    cases List.mem_singleton.mp member
    trivial
  | string => cases List.mem_singleton.mp member
  | @array depth shallow items readable ih =>
    cases items with
    | nil => simp [tokens] at member
    | cons v items =>
      have member : .literal l ∈ itemTokens (v :: items) := by
        simpa [tokens, itemTokens] using member
      obtain ⟨w, among, inside⟩ := literal_mem_itemTokens member
      exact ih w among inside
  | @object depth shallow fields apart readable ih =>
    cases fields with
    | nil => simp [tokens] at member
    | cons field fields =>
      have member : .literal l ∈ fieldTokens (field :: fields) := by
        simpa [tokens, fieldTokens] using member
      obtain ⟨other, among, inside⟩ := literal_mem_fieldTokens member
      exact ih other among inside

end Value

namespace Assembly

variable {outer : List Bracket}

/-- A value that the assembly puts together from its tokens, wherever it may begin. -/
def Builds (limits : Limits) (depth : Nat) (v : Value) : Prop :=
  ∀ (outer : List Bracket), outer.length = depth → ∀ rest,
    run limits (.value outer) (v.tokens ++ rest) = run limits (.complete outer v) rest

private theorem run_itemTokens {items : List Value}
    (builds : ∀ v ∈ items, Builds limits (outer.length + 1) v) (done : List Value) (v : Value)
    (rest : List Token) :
    run limits (.complete (.array done :: outer) v) (Value.itemTokens items ++ rest) =
      run limits (.complete outer (.array ((v :: done).reverse ++ items))) rest := by
  -- by induction on the items to come: each goes from the tokens to the items that are done
  induction items generalizing done v with
  | nil => simp [Value.itemTokens, run, step]
  | cons w items ih =>
    have next := builds w List.mem_cons_self (.array (v :: done) :: outer) rfl
      (Value.itemTokens items ++ rest)
    have later := ih (fun u member => builds u (List.mem_cons_of_mem w member)) (v :: done) w
    simp [Value.itemTokens, run, step, next, later]

theorem put_of_nodup {done fields : List (String × Value)} {key : String} {v : Value}
    (apart : (Table.keys (done ++ (key, v) :: fields)).Nodup) :
    Table.put done key v = done ++ [(key, v)] := by
  apply Table.put_of_not_mem
  intro known
  simp only [Table.keys, List.map_append, List.map_cons] at apart known
  exact List.disjoint_of_nodup_append apart known List.mem_cons_self

private theorem run_fieldTokens {fields : List (String × Value)}
    (builds : ∀ field ∈ fields, Builds limits (outer.length + 1) field.2)
    (done : List (String × Value)) (key : String) (v : Value)
    (apart : (Table.keys (done ++ (key, v) :: fields)).Nodup) (rest : List Token) :
    run limits (.complete (.object done key :: outer) v) (Value.fieldTokens fields ++ rest) =
      run limits (.complete outer (.object (done ++ (key, v) :: fields))) rest := by
  have put := put_of_nodup apart
  induction fields generalizing done key v with
  | nil => simp [Value.fieldTokens, run, step, put]
  | cons field fields ih =>
    obtain ⟨other, w⟩ := field
    have next := builds (other, w) List.mem_cons_self
      (.object (done ++ [(key, v)]) other :: outer) rfl (Value.fieldTokens fields ++ rest)
    have apart : (Table.keys ((done ++ [(key, v)]) ++ (other, w) :: fields)).Nodup := by
      simpa using apart
    have later := ih (fun field member => builds field (List.mem_cons_of_mem _ member))
      (done ++ [(key, v)]) other w apart (put_of_nodup apart)
    simp [Value.fieldTokens, run, step, put, next, later]

theorem run_literal {depth : Nat} (shallow : depth ≤ limits.depth) (l : Literal)
    (own : l.toValue.tokens = [.literal l]) : Builds limits depth l.toValue := by
  rintro outer rfl rest
  simp [own, run, step, beginValue, shallow]

theorem step_firstItem {t : Token} (opens : t ≠ .closeBracket) :
    step limits (.firstItem outer) t = step limits (.value (.array [] :: outer)) t := by
  cases t with
  | closeBracket => exact absurd rfl opens
  | _ => rfl

private theorem run_firstItem (v : Value) (rest : List Token) :
    run limits (.firstItem outer) (v.tokens ++ rest) =
      run limits (.value (.array [] :: outer)) (v.tokens ++ rest) := by
  obtain ⟨t, ts, form, opens⟩ : ∃ t ts, v.tokens = t :: ts ∧ t ≠ .closeBracket := by
    cases v with
    | array items => cases items <;> exact ⟨_, _, rfl, nofun⟩
    | object fields => cases fields <;> exact ⟨_, _, rfl, nofun⟩
    | _ => exact ⟨_, _, rfl, nofun⟩
  rw [form, List.cons_append, run, run, step_firstItem opens]

/-- Whatever is within the limits is put together from its tokens. -/
private theorem builds_of_readable {depth : Nat} {v : Value} (readable : v.Readable limits depth) :
    Builds limits depth v := by
  induction readable with
  | null shallow => exact run_literal shallow .null rfl
  | bool shallow b => exact run_literal shallow (.bool b) rfl
  | int shallow short => exact run_literal shallow (.int _) rfl
  | float shallow x => exact run_literal shallow (.float x) rfl
  | string shallow s =>
    rintro outer rfl rest
    simp [Value.tokens, run, step, beginValue, shallow]
  | @array depth shallow items readable ih =>
    rintro outer rfl rest
    cases items with
    | nil => simp [Value.tokens, run, step, beginValue, shallow]
    | cons v items =>
      have first := ih v List.mem_cons_self (.array [] :: outer) rfl
        (Value.itemTokens items ++ rest)
      have others := run_itemTokens (fun w member => ih w (List.mem_cons_of_mem v member)) [] v rest
      simp [Value.tokens, run, step, beginValue, shallow, run_firstItem, first, others]
  | @object depth shallow fields apart readable ih =>
    rintro outer rfl rest
    cases fields with
    | nil => simp [Value.tokens, run, step, beginValue, shallow]
    | cons field fields =>
      obtain ⟨key, v⟩ := field
      have first := ih (key, v) List.mem_cons_self (.object [] key :: outer) rfl
        (Value.fieldTokens fields ++ rest)
      have others := run_fieldTokens (fun field member => ih field (List.mem_cons_of_mem _ member))
        [] key v apart rest
      simp [Value.tokens, run, step, beginValue, shallow, first, others]

end Assembly

namespace Value

/-- A value within the limits is read back from its text. -/
theorem read?_chars (room : Scientific.exactWidth ≤ limits.digits) {v : Value}
    (readable : v.Readable limits 0) : read? limits v.chars = some v := by
  have ended : ∀ t ∈ ([] : List Token).head?, t.isLiteral = false := by simp
  have apart : v.tokens.IsChain Token.Apart := by
    simpa using isChain_tokens v ended .nil
  have fits : ∀ t ∈ v.tokens, t.Fits limits.digits := by
    intro t member
    cases t with
    | literal l => exact readable.fits member
    | _ => trivial
  have built : ofTokens? limits v.tokens = some v := by
    have run := Assembly.builds_of_readable readable [] rfl []
    simp only [List.append_nil] at run
    rw [ofTokens?, run]
    rfl
  rw [read?, chars, tokens?_flatMap_chars room apart fits, Option.bind_some, built]

end Value

theorem Value.Readable.shallow {depth : Nat} {v : Value} (readable : v.Readable limits depth) :
    depth ≤ limits.depth := by
  cases readable <;> assumption

theorem Value.readable_toValue {depth : Nat} (shallow : depth ≤ limits.depth) {l : Literal}
    (fits : l.Fits limits.digits) : l.toValue.Readable limits depth := by
  cases l with
  | null => exact .null shallow
  | bool b => exact .bool shallow b
  | int n => exact .int shallow fits
  | float x => exact .float shallow x

/-- What an open bracket holds is within the limits, and the key that waits for its value does not
matter. -/
def Bracket.Sound (limits : Limits) (depth : Nat) : Bracket → Prop
  | .array items => ∀ v ∈ items, v.Readable limits depth
  | .object fields _ =>
    (Table.keys fields).Nodup ∧ ∀ field ∈ fields, field.2.Readable limits depth

/-- All open brackets are sound, and each of them stands where a value may begin. -/
def Stacked (limits : Limits) : List Bracket → Prop
  | [] => True
  | bracket :: outer =>
    outer.length ≤ limits.depth ∧ bracket.Sound limits (outer.length + 1) ∧ Stacked limits outer

namespace Assembly

/-- What has been read so far is within the limits. -/
def Sound (limits : Limits) : Assembly → Prop
  | .value outer => Stacked limits outer
  | .firstItem outer => Stacked limits (.array [] :: outer)
  | .firstKey outer => Stacked limits (.object [] "" :: outer)
  | .key fields outer => Stacked limits (.object fields "" :: outer)
  | .colon fields name outer => Stacked limits (.object fields name :: outer)
  | .complete outer v => v.Readable limits outer.length ∧ Stacked limits outer

theorem sound_beginValue {outer : List Bracket} {t : Token} {next : Assembly}
    (stacked : Stacked limits outer) (fits : t.Fits limits.digits)
    (taken : beginValue limits outer t = some next) : next.Sound limits := by
  unfold beginValue at taken
  split_ifs at taken with shallow
  cases t with
  | openBracket =>
    cases taken
    exact ⟨shallow, nofun, stacked⟩
  | openBrace =>
    cases taken
    exact ⟨shallow, ⟨.nil, nofun⟩, stacked⟩
  | string s =>
    cases taken
    exact ⟨.string shallow s, stacked⟩
  | literal l =>
    cases taken
    exact ⟨Value.readable_toValue shallow fits, stacked⟩
  | _ => cases taken

private theorem sound_put {fields : List (String × Value)} {depth : Nat} {key : String} {v : Value}
    (sound : (Bracket.object fields key).Sound limits depth) (readable : v.Readable limits depth) :
    (Table.keys (Table.put fields key v)).Nodup ∧
      ∀ field ∈ Table.put fields key v, field.2.Readable limits depth := by
  obtain ⟨apart, all⟩ := sound
  refine ⟨Table.nodup_keys_put apart key v, ?_⟩
  intro field member
  rcases Table.eq_or_mem_of_mem_put member with rfl | member
  · exact readable
  · exact all field member

private theorem sound_step {assembly next : Assembly} {t : Token} (sound : assembly.Sound limits)
    (fits : t.Fits limits.digits) (taken : step limits assembly t = some next) :
    next.Sound limits := by
  cases assembly with
  | value outer => exact sound_beginValue sound fits taken
  | firstItem outer =>
    by_cases closing : t = .closeBracket
    · subst closing
      cases taken
      exact ⟨.array sound.1 nofun, sound.2.2⟩
    · rw [step_firstItem closing] at taken
      exact sound_beginValue sound fits taken
  | firstKey outer =>
    cases t with
    | closeBrace =>
      cases taken
      exact ⟨.object sound.1 .nil nofun, sound.2.2⟩
    | string s =>
      cases taken
      exact sound
    | _ => cases taken
  | key fields outer =>
    cases t with
    | string s =>
      cases taken
      exact sound
    | _ => cases taken
  | colon fields name outer =>
    cases t with
    | colon =>
      cases taken
      exact sound
    | _ => cases taken
  | complete outer v =>
    obtain ⟨readable, stacked⟩ := sound
    cases outer with
    | nil => cases t <;> cases taken
    | cons bracket outer =>
      obtain ⟨shallow, held, stacked⟩ := stacked
      cases bracket with
      | array items =>
        have all : ∀ w ∈ v :: items, w.Readable limits (outer.length + 1) :=
          List.forall_mem_cons.mpr ⟨readable, held⟩
        cases t with
        | comma =>
          cases taken
          exact ⟨shallow, all, stacked⟩
        | closeBracket =>
          cases taken
          exact ⟨.array shallow fun w member => all w (List.mem_reverse.mp member), stacked⟩
        | _ => cases taken
      | object fields name =>
        obtain ⟨apart, all⟩ := sound_put held readable
        cases t with
        | comma =>
          cases taken
          exact ⟨shallow, ⟨apart, all⟩, stacked⟩
        | closeBrace =>
          cases taken
          exact ⟨.object shallow apart all, stacked⟩
        | _ => cases taken

private theorem sound_run {assembly final : Assembly} {ts : List Token}
    (sound : assembly.Sound limits)
    (fits : ∀ t ∈ ts, t.Fits limits.digits) (taken : run limits assembly ts = some final) :
    final.Sound limits := by
  induction ts generalizing assembly with
  | nil => exact Option.some.inj taken ▸ sound
  | cons t ts ih =>
    obtain ⟨next, first, rest⟩ := Option.bind_eq_some_iff.mp taken
    exact ih (sound_step sound (fits t List.mem_cons_self) first)
      (fun u member => fits u (List.mem_cons_of_mem t member)) rest

end Assembly

/-- What was read is within the limits. -/
theorem Value.readable_of_read? {cs : List Char} {v : Value} (read : read? limits cs = some v) :
    v.Readable limits 0 := by
  obtain ⟨ts, lexed, assembled⟩ := Option.bind_eq_some_iff.mp read
  obtain ⟨final, taken, finished⟩ := Option.bind_eq_some_iff.mp assembled
  have start : (Assembly.value []).Sound limits := trivial
  have sound := Assembly.sound_run start (fits_of_tokens? lexed) taken
  unfold Assembly.finish at finished
  split at finished
  · cases finished
    exact sound.1
  · cases finished

theorem Value.Readable.of_field? {depth : Nat} {v w : Value} {key : String}
    (readable : v.Readable limits depth) (found : v.field? key = some w) :
    w.Readable limits (depth + 1) := by
  cases readable with
  | object shallow apart readable => exact readable (key, w) (Table.mem_of_find? found)
  | _ => cases found

end GameRelay.Json
