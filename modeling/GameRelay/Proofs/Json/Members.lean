import GameRelay.Proofs.Json.Reader
import Mathlib.Data.List.Induction

/-!
# The members of an object

An object is read from the keys and values that stand between its braces. What is read of each value
does not depend on the brackets around it, but for their number. Of the members with one key the
last counts.
-/

set_option autoImplicit false
set_option relaxedAutoImplicit false

namespace GameRelay.Json

namespace Assembly

/-- The same assembly inside more open brackets. -/
def onto (outer : List Bracket) : Assembly → Assembly
  | .value stack => .value (stack ++ outer)
  | .firstItem stack => .firstItem (stack ++ outer)
  | .firstKey stack => .firstKey (stack ++ outer)
  | .key fields stack => .key fields (stack ++ outer)
  | .colon fields k stack => .colon fields k (stack ++ outer)
  | .complete stack v => .complete (stack ++ outer) v

variable {depth digits : Nat} {outer : List Bracket}

theorem beginValue_onto (stack : List Bracket) (t : Token) :
    beginValue ⟨depth + outer.length, digits⟩ (stack ++ outer) t =
      (beginValue ⟨depth, digits⟩ stack t).map (onto outer) := by
  unfold beginValue
  simp only [List.length_append, Nat.add_le_add_iff_right]
  split
  · cases t <;> rfl
  · rfl

theorem step_onto {a : Assembly} (going : ∀ v, a ≠ .complete [] v) (t : Token) :
    step ⟨depth + outer.length, digits⟩ (a.onto outer) t =
      (step ⟨depth, digits⟩ a t).map (onto outer) := by
  cases a with
  | value stack => exact beginValue_onto stack t
  | firstItem stack =>
    by_cases closing : t = .closeBracket
    · subst closing
      rfl
    · rw [onto, step_firstItem closing, step_firstItem closing]
      exact beginValue_onto (.array [] :: stack) t
  | firstKey stack => cases t <;> rfl
  | key fields stack => cases t <;> rfl
  | colon fields k stack => cases t <;> rfl
  | complete stack v =>
    cases stack with
    | nil => exact absurd rfl (going v)
    | cons bracket stack => cases bracket <;> cases t <;> rfl

private theorem going_of_step {limits : Limits} {a next : Assembly} {t : Token}
    (taken : step limits a t = some next) (v : Value) : a ≠ .complete [] v := by
  rintro rfl
  cases t <;> cases taken

private theorem run_onto (outer : List Bracket) {a final : Assembly} {ts : List Token}
    (taken : run ⟨depth, digits⟩ a ts = some final) :
    run ⟨depth + outer.length, digits⟩ (a.onto outer) ts = some (final.onto outer) := by
  induction ts generalizing a with
  | nil => exact congrArg (Option.map (onto outer)) taken
  | cons t ts ih =>
    obtain ⟨next, first, rest⟩ := Option.bind_eq_some_iff.mp taken
    rw [run, step_onto (going_of_step first), first]
    exact ih rest

private theorem run_append {limits : Limits} {a : Assembly} (ts later : List Token) :
    run limits a (ts ++ later) = (run limits a ts).bind fun next => run limits next later := by
  induction ts generalizing a with
  | nil => rfl
  | cons t ts ih =>
    rw [List.cons_append, run, run, Option.bind_assoc]
    exact congrArg (Option.bind (step limits a t)) (funext fun next => ih)

/-- A value inside brackets that are all closed in the end is read before them. -/
theorem run_split (a : Assembly) (around : outer ≠ []) {ts : List Token} {v : Value}
    (taken : run ⟨depth + outer.length, digits⟩ (a.onto outer) ts = some (.complete [] v)) :
    ∃ inner rest w, ts = inner ++ rest ∧ run ⟨depth, digits⟩ a inner = some (.complete [] w) ∧
      run ⟨depth + outer.length, digits⟩ (.complete outer w) rest = some (.complete [] v) := by
  -- as long as the value is not complete, a step is the same as without the brackets
  induction ts generalizing a with
  | nil =>
    have same := Option.some.inj taken
    cases a with
    | complete stack w =>
      have closed : stack ++ outer = [] := (Assembly.complete.inj same).1
      exact absurd (List.append_eq_nil_iff.mp closed).2 around
    | _ => cases same
  | cons t ts ih =>
    by_cases done : ∃ w, a = .complete [] w
    · obtain ⟨w, rfl⟩ := done
      exact ⟨[], t :: ts, w, rfl, rfl, taken⟩
    · have going : ∀ w, a ≠ .complete [] w := fun w same => done ⟨w, same⟩
      rw [run, step_onto going] at taken
      obtain ⟨next, mapped, later⟩ := Option.bind_eq_some_iff.mp taken
      obtain ⟨b, first, rfl⟩ := Option.map_eq_some_iff.mp mapped
      obtain ⟨inner, rest, w, rfl, value, after⟩ := ih b later
      refine ⟨t :: inner, rest, w, rfl, ?_, after⟩
      rw [run, first]
      exact value

end Assembly

/-- The fields that are left of some members: the last value of each key, at the place of the
first. -/
def settle (fields : List (String × Value)) (members : List (String × Value)) :
    List (String × Value) :=
  members.foldl (fun fields m => Table.put fields m.1 m.2) fields

def lastUnder? (members : List (String × Value)) (key : String) : Option Value :=
  Table.find? members.reverse key

/-- What limits leave to a value inside one bracket. -/
def Limits.inside (limits : Limits) : Limits := ⟨limits.depth - 1, limits.digits⟩

inductive Members (limits : Limits) : List Token → List (String × Value) → Prop
  | last {ts : List Token} {v : Value} (key : String) (value : Value.ofTokens? limits ts = some v) :
    Members limits (.string key :: .colon :: ts) [(key, v)]
  | more {ts later : List Token} {v : Value} {members : List (String × Value)} (key : String)
      (value : Value.ofTokens? limits ts = some v) (rest : Members limits later members) :
    Members limits (.string key :: .colon :: (ts ++ .comma :: later)) ((key, v) :: members)

inductive Lists (limits : Limits) : List Token → List (String × Value) → Prop
  | empty : Lists limits [.openBrace, .closeBrace] []
  | filled {ts : List Token} {members : List (String × Value)}
      (inside : Members limits ts members) :
    Lists limits (.openBrace :: (ts ++ [.closeBrace])) members

theorem Value.ofTokens?_eq_some_iff {limits : Limits} {ts : List Token} {v : Value} :
    Value.ofTokens? limits ts = some v ↔
      (Assembly.value []).run limits ts = some (.complete [] v) := by
  rw [Value.ofTokens?, Option.bind_eq_some_iff]
  constructor
  · rintro ⟨final, taken, finished⟩
    unfold Assembly.finish at finished
    split at finished
    · cases finished
      exact taken
    · cases finished
  · exact fun taken => ⟨_, taken, rfl⟩

namespace Assembly

variable {depth digits : Nat}

theorem run_member {ts : List Token} {v : Value}
    (value : Value.ofTokens? ⟨depth, digits⟩ ts = some v) (fields : List (String × Value))
    (key : String) (later : List Token) :
    run ⟨depth + 1, digits⟩ (.key fields []) (.string key :: .colon :: (ts ++ later)) =
      run ⟨depth + 1, digits⟩ (.complete [.object fields key] v) later := by
  have inside := run_onto [.object fields key] (Value.ofTokens?_eq_some_iff.mp value)
  have taken : run ⟨depth + 1, digits⟩ (.value [.object fields key]) ts =
      some (.complete [.object fields key] v) := inside
  simp only [run, step, Option.bind_some, run_append, taken]

private theorem run_members {ts : List Token} {members : List (String × Value)}
    (inside : Members ⟨depth, digits⟩ ts members) (fields : List (String × Value)) :
    run ⟨depth + 1, digits⟩ (.key fields []) (ts ++ [.closeBrace]) =
      some (.complete [] (.object (settle fields members))) := by
  induction inside generalizing fields with
  | last key value =>
    rw [List.cons_append, List.cons_append, run_member value]
    rfl
  | more key value rest ih =>
    rw [List.cons_append, List.cons_append, List.append_assoc, run_member value]
    exact ih (Table.put fields key _)

section
variable {limits : Limits} {fields : List (String × Value)} {ts : List Token} {v : Value}

theorem run_done (limits : Limits) (ts : List Token) {w : Value} {final : Assembly}
    (taken : run limits (.complete [] w) ts = some final) : ts = [] ∧ final = .complete [] w := by
  cases ts with
  | nil => exact ⟨rfl, (Option.some.inj taken).symm⟩
  | cons t ts => cases t <;> cases taken

private theorem key_of_run (taken : run limits (.key fields []) ts = some (.complete [] v)) :
    ∃ k rest, ts = .string k :: .colon :: rest ∧
      run limits (.value [.object fields k]) rest = some (.complete [] v) := by
  cases ts with
  | nil => cases taken
  | cons t ts =>
    cases t with
    | string k =>
      cases ts with
      | nil => cases taken
      | cons u ts =>
        cases u with
        | colon => exact ⟨k, ts, rfl, taken⟩
        | _ => cases taken
    | _ => cases taken

private theorem separator_of_run {key : String} {w : Value}
    (taken : run limits (.complete [.object fields key] w) ts = some (.complete [] v)) :
    (ts = [.closeBrace] ∧ v = .object (Table.put fields key w)) ∨
      ∃ rest, ts = .comma :: rest ∧
        run limits (.key (Table.put fields key w) []) rest = some (.complete [] v) := by
  cases ts with
  | nil => cases taken
  | cons t rest =>
    cases t with
    | closeBrace =>
      obtain ⟨rfl, same⟩ := run_done limits rest taken
      cases same
      exact .inl ⟨rfl, rfl⟩
    | comma => exact .inr ⟨rest, rfl, taken⟩
    | _ => cases taken

end

private theorem members_of_run {ts : List Token} {fields : List (String × Value)} {v : Value}
    (taken : run ⟨depth + 1, digits⟩ (.key fields []) ts = some (.complete [] v)) :
    ∃ inner members, ts = inner ++ [.closeBrace] ∧ Members ⟨depth, digits⟩ inner members ∧
      v = .object (settle fields members) := by
  -- by induction on the number of tokens, as each member takes some of them
  induction length : ts.length using Nat.strong_induction_on generalizing ts fields with
  | _ n ih =>
    obtain ⟨k, rest, rfl, taken⟩ := key_of_run taken
    obtain ⟨inner, later, w, rfl, value, taken⟩ :=
      run_split (.value []) (List.cons_ne_nil (.object fields k) []) taken
    have value : Value.ofTokens? ⟨depth, digits⟩ inner = some w :=
      Value.ofTokens?_eq_some_iff.mpr value
    rcases separator_of_run taken with ⟨rfl, rfl⟩ | ⟨others, rfl, taken⟩
    · exact ⟨.string k :: .colon :: inner, [(k, w)], rfl, .last k value, rfl⟩
    · have shorter : others.length < n := by
        simp only [List.length_cons, List.length_append] at length
        omega
      obtain ⟨tokens, members, rfl, inside, rfl⟩ := ih _ shorter taken rfl
      exact ⟨_, _, by simp, .more k value inside, rfl⟩

private theorem array_of_run {ts : List Token} {items : List Value} {v : Value}
    (taken : run ⟨depth + 1, digits⟩ (.value [.array items]) ts = some (.complete [] v)) :
    ∃ all, v = .array all := by
  induction length : ts.length using Nat.strong_induction_on generalizing ts items with
  | _ n ih =>
    obtain ⟨inner, later, w, rfl, -, taken⟩ :=
      run_split (.value []) (List.cons_ne_nil (.array items) []) taken
    cases later with
    | nil => cases taken
    | cons t rest =>
      cases t with
      | comma =>
        have shorter : rest.length < n := by
          simp only [List.length_append, List.length_cons] at length
          omega
        exact ih _ shorter taken rfl
      | closeBracket =>
        cases (run_done ⟨depth + 1, digits⟩ rest taken).2
        exact ⟨_, rfl⟩
      | _ => cases taken

private theorem array_of_firstItem {ts : List Token} {v : Value}
    (taken : run ⟨depth + 1, digits⟩ (.firstItem []) ts = some (.complete [] v)) :
    ∃ all, v = .array all := by
  cases ts with
  | nil => cases taken
  | cons t rest =>
    by_cases closing : t = .closeBracket
    · subst closing
      cases (run_done ⟨depth + 1, digits⟩ rest taken).2
      exact ⟨[], rfl⟩
    · rw [run, step_firstItem closing] at taken
      have begun : run ⟨depth + 1, digits⟩ (.value [.array []]) (t :: rest) =
          some (.complete [] v) := taken
      exact array_of_run begun

theorem run_openBrace {limits : Limits} (ts : List Token) :
    run limits (.value []) (.openBrace :: ts) = run limits (.firstKey []) ts := by
  simp [run, step, beginValue]

private theorem brace_of_run {ts : List Token} {fields : List (String × Value)}
    (taken : run ⟨depth + 1, digits⟩ (.value []) ts = some (.complete [] (.object fields))) :
    ∃ rest, ts = .openBrace :: rest ∧
      run ⟨depth + 1, digits⟩ (.firstKey []) rest = some (.complete [] (.object fields)) := by
  cases ts with
  | nil => cases taken
  | cons t rest =>
    obtain ⟨next, first, taken⟩ := Option.bind_eq_some_iff.mp taken
    have begun : beginValue ⟨depth + 1, digits⟩ [] t = some next := first
    have shallow : ([] : List Bracket).length ≤ depth + 1 := Nat.zero_le _
    unfold beginValue at begun
    rw [if_pos shallow] at begun
    cases t with
    | openBrace =>
      cases begun
      exact ⟨rest, rfl, taken⟩
    | openBracket =>
      cases begun
      obtain ⟨all, same⟩ := array_of_firstItem taken
      cases same
    | string s =>
      cases begun
      cases (run_done ⟨depth + 1, digits⟩ rest taken).2
    | literal l =>
      cases begun
      have same := (run_done ⟨depth + 1, digits⟩ rest taken).2
      cases l <;> cases same
    | _ => cases begun

end Assembly

theorem Value.ofTokens?_of_lists {depth digits : Nat} {ts : List Token}
    {members : List (String × Value)} (lists : Lists ⟨depth, digits⟩ ts members) :
    Value.ofTokens? ⟨depth + 1, digits⟩ ts = some (.object (settle [] members)) := by
  rw [Value.ofTokens?_eq_some_iff]
  cases lists with
  | empty => rw [Assembly.run_openBrace]; rfl
  | filled inside =>
    rw [Assembly.run_openBrace, ← Assembly.run_members inside]
    cases inside <;> rfl

/-- A value is an object with some fields exactly if its tokens list members that settle to them. -/
theorem Value.ofTokens?_eq_object_iff {depth digits : Nat} {ts : List Token}
    {fields : List (String × Value)} :
    Value.ofTokens? ⟨depth + 1, digits⟩ ts = some (.object fields) ↔
      ∃ members, Lists ⟨depth, digits⟩ ts members ∧ fields = settle [] members := by
  constructor
  · intro read
    obtain ⟨rest, rfl, taken⟩ := Assembly.brace_of_run (Value.ofTokens?_eq_some_iff.mp read)
    cases rest with
    | nil => cases taken
    | cons t rest =>
      cases t with
      | closeBrace =>
        obtain ⟨rfl, same⟩ :=
          Assembly.run_done ⟨depth + 1, digits⟩ rest taken
        cases same
        exact ⟨[], .empty, rfl⟩
      | string key =>
        have started : (Assembly.key [] []).run ⟨depth + 1, digits⟩ (.string key :: rest) =
            some (.complete [] (.object fields)) := taken
        obtain ⟨inner, members, whole, inside, same⟩ :=
          Assembly.members_of_run started
        cases same
        exact ⟨members, whole ▸ .filled inside, rfl⟩
      | _ => cases taken
  · rintro ⟨members, lists, rfl⟩
    exact ofTokens?_of_lists lists

private theorem lastUnder?_concat (members : List (String × Value)) (key other : String)
    (v : Value) : lastUnder? (members ++ [(key, v)]) other =
      if other = key then some v else lastUnder? members other := by
  rw [lastUnder?, List.reverse_append, List.reverse_singleton, List.singleton_append, Table.find?]
  by_cases same : key = other
  · rw [if_pos same, if_pos same.symm]
  · rw [if_neg same, if_neg (Ne.symm same)]
    rfl

theorem find?_settle (members : List (String × Value)) (key : String) :
    Table.find? (settle [] members) key = lastUnder? members key := by
  induction members using List.reverseRecOn with
  | nil => rfl
  | append_singleton before m ih =>
    obtain ⟨k, v⟩ := m
    rw [settle, List.foldl_append, List.foldl_cons, List.foldl_nil, Table.find?_put,
      lastUnder?_concat, ← settle, ih]

theorem lastUnder?_of_perm {members others : List (String × Value)}
    (apart : (Table.keys members).Nodup) (perm : members.Perm others) (key : String) :
    lastUnder? others key = lastUnder? members key := by
  have backwards : (Table.keys members.reverse).Nodup := by
    rw [Table.keys, List.map_reverse, List.nodup_reverse]
    exact apart
  have reversed : members.reverse.Perm others.reverse :=
    members.reverse_perm.trans (perm.trans others.reverse_perm.symm)
  exact Table.find?_of_perm backwards reversed key

theorem lastUnder?_filter (members : List (String × Value)) {keys : List String} {key : String}
    (used : key ∈ keys) :
    lastUnder? (members.filter fun m => m.1 ∈ keys) key = lastUnder? members key := by
  rw [lastUnder?, ← List.filter_reverse]
  exact Table.find?_filter members.reverse (fun k => k ∈ keys) (decide_eq_true used)

end GameRelay.Json
