/-!
# Ordered tables

An association list that keeps the order in which keys first came. Writing to a key that is
there replaces its value in place; a new key goes to the end.
-/

set_option autoImplicit false
set_option relaxedAutoImplicit false

namespace GameRelay

abbrev Table (κ υ : Type) := List (κ × υ)

namespace Table

variable {κ υ : Type} [DecidableEq κ]

def find? : Table κ υ → κ → Option υ
  | [], _ => none
  | (k, v) :: rest, key => if k = key then some v else find? rest key

def contains (t : Table κ υ) (key : κ) : Bool := (find? t key).isSome

/-- Writes a value: in place when the key is there, at the end otherwise. -/
def put : Table κ υ → κ → υ → Table κ υ
  | [], key, value => [(key, value)]
  | (k, v) :: rest, key, value =>
    if k = key then (k, value) :: rest else (k, v) :: put rest key value

def erase : Table κ υ → κ → Table κ υ
  | [], _ => []
  | (k, v) :: rest, key => if k = key then rest else (k, v) :: erase rest key

@[simp] theorem find?_put_self (t : Table κ υ) (key : κ) (value : υ) :
    find? (put t key value) key = some value := by
  induction t with
  | nil => simp [put, find?]
  | cons entry rest ih =>
    obtain ⟨k, v⟩ := entry
    by_cases h : k = key <;> simp [put, find?, h, ih]

theorem find?_put_of_ne (t : Table κ υ) {key other : κ} (value : υ) (h : other ≠ key) :
    find? (put t key value) other = find? t other := by
  induction t with
  | nil => simp [put, find?, Ne.symm h]
  | cons entry rest ih =>
    obtain ⟨k, v⟩ := entry
    by_cases hk : k = key
    · subst hk
      simp [put, find?, Ne.symm h]
    · by_cases ho : k = other <;> simp [put, find?, hk, ho, ih, h]

theorem find?_erase_of_ne (t : Table κ υ) {key other : κ} (h : other ≠ key) :
    find? (erase t key) other = find? t other := by
  induction t with
  | nil => rfl
  | cons entry rest ih =>
    obtain ⟨k, v⟩ := entry
    by_cases hk : k = key
    · subst hk
      simp [erase, find?, Ne.symm h]
    · by_cases ho : k = other <;> simp [erase, find?, hk, ho, ih, h]

end Table

end GameRelay
