import GameRelay.RoomCode

/-!
# What a search for a free code comes to

A source that is asked again and again gives taken codes, until it gives a free one or fails. A
search finds exactly the code that is given so, and fails exactly as the source does.
-/

set_option autoImplicit false
set_option relaxedAutoImplicit false

namespace GameRelay.CodeSource

/-- Asked again and again, a source gives taken codes only, and then a free one. -/
inductive Gives (taken : String → Bool) : CodeSource → String → Prop
  | now {source rest : CodeSource} {code : String} (next : source.next = (.ok code, rest))
      (isFree : taken code = false) : Gives taken source code
  | later {source rest : CodeSource} {first code : String} (next : source.next = (.ok first, rest))
      (isTaken : taken first = true) (gives : Gives taken rest code) : Gives taken source code

/-- Asked again and again, a source gives taken codes only, and then fails. -/
inductive Fails (taken : String → Bool) : CodeSource → SourceFault → Prop
  | now {source rest : CodeSource} {fault : SourceFault}
      (next : source.next = (.error fault, rest)) : Fails taken source fault
  | later {source rest : CodeSource} {first : String} {fault : SourceFault}
      (next : source.next = (.ok first, rest)) (isTaken : taken first = true)
      (fails : Fails taken rest fault) : Fails taken source fault

private theorem supply_lt_or_eq_of_next {source rest : CodeSource} {code : String}
    (next : source.next = (.ok code, rest)) : rest.supply < source.supply ∨ rest = source := by
  cases source with
  | listed codes =>
    cases codes with
    | nil => cases next
    | cons first others =>
      cases next
      exact .inl (Nat.lt_succ_self others.length)
  | random length draws =>
    simp only [CodeSource.next] at next
    split at next
    · cases next
    · rename_i places _
      split at next
      · cases next
        cases places with
        | zero => exact .inr rfl
        | succ n =>
          left
          simp only [supply, List.length_drop]
          omega
      · cases next

section
variable {taken : String → Bool} {source rest : CodeSource}

theorem outcome_search_of_taken {first : String} (next : source.next = (.ok first, rest))
    (isTaken : taken first = true) {outcome : Outcome}
    (later : (rest.search taken).outcome = outcome) : (source.search taken).outcome = outcome := by
  rcases supply_lt_or_eq_of_next next with less | same
  · rw [search, next]
    simp only [isTaken, less, if_true]
    exact later
  · exact same ▸ later

theorem outcome_search_eq_found_iff {code : String} :
    (source.search taken).outcome = .found code ↔ source.Gives taken code := by
  constructor
  · intro found
    fun_induction source.search taken with
    | case1 => cases found
    | case2 source first rest next isTaken less later ih =>
      exact .later next isTaken (ih found)
    | case3 => cases found
    | case4 source first rest next isFree =>
      cases found
      exact .now next (by simpa using isFree)
  · intro gives
    induction gives with
    | now next isFree =>
      rw [search, next]
      simp only [isFree, Bool.false_eq_true, if_false]
    | later next isTaken gives ih => exact outcome_search_of_taken next isTaken ih

theorem outcome_search_eq_failed_iff {fault : SourceFault} :
    (source.search taken).outcome = .failed fault ↔ source.Fails taken fault := by
  constructor
  · intro failed
    fun_induction source.search taken with
    | case1 source cause rest next =>
      cases failed
      exact .now next
    | case2 source first rest next isTaken less later ih =>
      exact .later next isTaken (ih failed)
    | case3 => cases failed
    | case4 => cases failed
  · intro fails
    induction fails with
    | now next => rw [search, next]
    | later next isTaken fails ih => exact outcome_search_of_taken next isTaken ih

/-- A search is endless exactly when the source neither gives a free code nor fails. -/
theorem outcome_search_eq_endless_iff :
    (source.search taken).outcome = .endless ↔
      (∀ code, ¬source.Gives taken code) ∧ ∀ fault, ¬source.Fails taken fault := by
  simp only [← outcome_search_eq_found_iff, ← outcome_search_eq_failed_iff]
  cases (source.search taken).outcome <;> simp

end

section
variable {taken : String → Bool} {passed : List String}

theorem search_listed_append (all : ∀ code ∈ passed, taken code = true) (rest : List String) :
    (listed (passed ++ rest)).search taken =
      { (listed rest).search taken with
        collisions := passed ++ ((listed rest).search taken).collisions } := by
  induction passed with
  | nil => rfl
  | cons first others ih =>
    obtain ⟨isTaken, all⟩ := List.forall_mem_cons.mp all
    rw [List.cons_append, search, next]
    have less : (listed (others ++ rest)).supply < (listed (first :: (others ++ rest))).supply :=
      Nat.lt_succ_self _
    simp only [isTaken, less, if_true, ih all, List.cons_append]

theorem search_listed_of_free (all : ∀ code ∈ passed, taken code = true) {code : String}
    (isFree : taken code = false) (rest : List String) :
    (listed (passed ++ code :: rest)).search taken = ⟨passed, .found code, listed rest⟩ := by
  have now : (listed (code :: rest)).search taken = ⟨[], .found code, listed rest⟩ := by
    rw [search, next]
    simp only [isFree, Bool.false_eq_true, if_false]
  rw [search_listed_append all, now, List.append_nil]

theorem search_listed_of_taken (all : ∀ code ∈ passed, taken code = true) :
    (listed passed).search taken = ⟨passed, .failed .codesExhausted, listed []⟩ := by
  have now : (listed []).search taken = ⟨[], .failed .codesExhausted, listed []⟩ := by
    rw [search, next]
  rw [← List.append_nil passed, search_listed_append all, now, List.append_nil]

end

end GameRelay.CodeSource
