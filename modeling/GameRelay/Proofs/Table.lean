import GameRelay.Table
import Mathlib.Data.List.Nodup

/-!
# Keys of ordered tables

A table in which no key comes twice is a finite map that remembers the order of its keys:
membership of an entry and look-up of its key say the same, and writing and erasing keep the keys
apart.
-/

set_option autoImplicit false
set_option relaxedAutoImplicit false

namespace GameRelay.Table

variable {κ υ : Type}

def keys (t : Table κ υ) : List κ := t.map Prod.fst

@[simp] theorem keys_nil : keys ([] : Table κ υ) = [] := rfl

@[simp] theorem keys_cons (entry : κ × υ) (t : Table κ υ) :
    keys (entry :: t) = entry.1 :: keys t := rfl

theorem mem_keys_of_mem {t : Table κ υ} {key : κ} {value : υ} (member : (key, value) ∈ t) :
    key ∈ keys t :=
  List.mem_map_of_mem member

variable [DecidableEq κ]

theorem find?_put (t : Table κ υ) (key other : κ) (value : υ) :
    find? (put t key value) other = if other = key then some value else find? t other := by
  by_cases same : other = key
  · subst same
    simp
  · rw [find?_put_of_ne t value same, if_neg same]

theorem mem_of_find? {t : Table κ υ} {key : κ} {value : υ} (found : find? t key = some value) :
    (key, value) ∈ t := by
  induction t with
  | nil => cases found
  | cons entry rest ih =>
    obtain ⟨k, v⟩ := entry
    by_cases same : k = key
    · subst same
      simp only [find?, if_true, Option.some.injEq] at found
      exact found ▸ List.mem_cons_self
    · simp only [find?, same, if_false] at found
      exact List.mem_cons_of_mem _ (ih found)

theorem find?_eq_none_iff (t : Table κ υ) (key : κ) : find? t key = none ↔ key ∉ keys t := by
  induction t with
  | nil => simp [find?]
  | cons entry rest ih =>
    obtain ⟨k, v⟩ := entry
    by_cases same : k = key
    · simp [find?, same]
    · simp [find?, same, Ne.symm same, ih]

theorem contains_iff_mem_keys (t : Table κ υ) (key : κ) :
    contains t key = true ↔ key ∈ keys t := by
  rw [contains, ← not_iff_not, ← find?_eq_none_iff, Bool.not_eq_true,
    Option.isSome_eq_false_iff, Option.isNone_iff_eq_none]

theorem find?_of_mem {t : Table κ υ} (apart : (keys t).Nodup) {key : κ} {value : υ}
    (member : (key, value) ∈ t) : find? t key = some value := by
  induction t with
  | nil => cases member
  | cons entry rest ih =>
    obtain ⟨k, v⟩ := entry
    obtain ⟨fresh, apart⟩ := List.nodup_cons.mp apart
    rcases List.mem_cons.mp member with first | later
    · cases first
      simp [find?]
    · have ne : k ≠ key := by
        intro same
        exact fresh (same ▸ mem_keys_of_mem later)
      rw [find?, if_neg ne]
      exact ih apart later

theorem find?_of_perm {t u : Table κ υ} (apart : (keys t).Nodup) (perm : t.Perm u) (key : κ) :
    find? u key = find? t key := by
  have keys_perm : (keys t).Perm (keys u) := perm.map Prod.fst
  cases found : find? t key with
  | none =>
    rw [find?_eq_none_iff] at found ⊢
    exact fun member => found (keys_perm.mem_iff.mpr member)
  | some value =>
    exact find?_of_mem (keys_perm.nodup_iff.mp apart) (perm.mem_iff.mp (mem_of_find? found))

theorem find?_filter (t : Table κ υ) (kept : κ → Bool) {key : κ} (stays : kept key = true) :
    find? (t.filter fun entry => kept entry.1) key = find? t key := by
  induction t with
  | nil => rfl
  | cons entry rest ih =>
    obtain ⟨k, v⟩ := entry
    by_cases same : k = key
    · subst same
      simp [stays, find?]
    · cases stay : kept k <;> simp [stay, find?, same, ih]

theorem keys_put_of_mem {t : Table κ υ} {key : κ} (value : υ) (member : key ∈ keys t) :
    keys (put t key value) = keys t := by
  induction t with
  | nil => cases member
  | cons entry rest ih =>
    obtain ⟨k, v⟩ := entry
    by_cases same : k = key
    · simp [put, same]
    · rcases List.mem_cons.mp member with first | later
      · exact absurd first.symm same
      · simp [put, same, ih later]

theorem put_of_not_mem {t : Table κ υ} {key : κ} (value : υ) (fresh : key ∉ keys t) :
    put t key value = t ++ [(key, value)] := by
  induction t with
  | nil => rfl
  | cons entry rest ih =>
    obtain ⟨k, v⟩ := entry
    rw [keys_cons, List.mem_cons, not_or] at fresh
    obtain ⟨ne, fresh⟩ := fresh
    simp [put, Ne.symm ne, ih fresh]

theorem keys_put_of_not_mem {t : Table κ υ} {key : κ} (value : υ) (fresh : key ∉ keys t) :
    keys (put t key value) = keys t ++ [key] := by
  rw [put_of_not_mem value fresh]
  simp [keys]

theorem nodup_keys_put {t : Table κ υ} (apart : (keys t).Nodup) (key : κ) (value : υ) :
    (keys (put t key value)).Nodup := by
  by_cases member : key ∈ keys t
  · rwa [keys_put_of_mem value member]
  · rw [keys_put_of_not_mem value member]
    exact List.nodup_append.mpr ⟨apart, by simp, by
      intro k known last only same
      rw [List.mem_singleton.mp only] at same
      exact member (same ▸ known)⟩

theorem eq_or_mem_of_mem_put {t : Table κ υ} {key : κ} {value : υ} {entry : κ × υ}
    (member : entry ∈ put t key value) : entry = (key, value) ∨ entry ∈ t := by
  induction t with
  | nil => exact .inl (List.mem_singleton.mp member)
  | cons first rest ih =>
    obtain ⟨k, v⟩ := first
    by_cases same : k = key
    · subst same
      rw [put, if_pos rfl] at member
      exact (List.mem_cons.mp member).imp_right (List.mem_cons_of_mem _)
    · rw [put, if_neg same] at member
      rcases List.mem_cons.mp member with rfl | later
      · exact .inr List.mem_cons_self
      · exact (ih later).imp_right (List.mem_cons_of_mem _)

theorem put_of_mem {t : Table κ υ} (apart : (keys t).Nodup) {key : κ} (value : υ)
    (member : key ∈ keys t) :
    put t key value = t.map fun entry => if entry.1 = key then (key, value) else entry := by
  induction t with
  | nil => cases member
  | cons entry rest ih =>
    obtain ⟨k, v⟩ := entry
    obtain ⟨fresh, apart⟩ := List.nodup_cons.mp apart
    by_cases same : k = key
    · subst same
      have others : ∀ entry ∈ rest, (if entry.1 = k then (k, value) else entry) = entry := by
        intro entry later
        refine if_neg ?_
        rintro rfl
        exact fresh (mem_keys_of_mem later)
      rw [put, if_pos rfl, List.map_cons, if_pos rfl, List.map_congr_left others, List.map_id']
    · have later := (List.mem_cons.mp member).resolve_left (Ne.symm same)
      rw [put, if_neg same, List.map_cons, if_neg same, ih apart later]

theorem put_of_find? {t : Table κ υ} {key : κ} {value : υ} (found : find? t key = some value) :
    put t key value = t := by
  induction t with
  | nil => cases found
  | cons entry rest ih =>
    obtain ⟨k, v⟩ := entry
    by_cases same : k = key
    · simp only [find?, same, if_true, Option.some.injEq] at found
      simp [put, same, found]
    · simp only [find?, same, if_false] at found
      simp [put, same, ih found]

theorem erase_sublist (t : Table κ υ) (key : κ) : (erase t key).Sublist t := by
  induction t with
  | nil => exact List.Sublist.refl _
  | cons entry rest ih =>
    obtain ⟨k, v⟩ := entry
    by_cases same : k = key
    · simp [erase, same]
    · simpa [erase, same] using ih

private theorem keys_erase_sublist (t : Table κ υ) (key : κ) :
    (keys (erase t key)).Sublist (keys t) :=
  (erase_sublist t key).map Prod.fst

theorem nodup_keys_erase {t : Table κ υ} (apart : (keys t).Nodup) (key : κ) :
    (keys (erase t key)).Nodup :=
  (keys_erase_sublist t key).nodup apart

theorem erase_eq_filter {t : Table κ υ} (apart : (keys t).Nodup) (key : κ) :
    erase t key = t.filter fun entry => entry.1 ≠ key := by
  induction t with
  | nil => rfl
  | cons entry rest ih =>
    obtain ⟨k, v⟩ := entry
    obtain ⟨fresh, apart⟩ := List.nodup_cons.mp apart
    by_cases same : k = key
    · subst same
      have others : ∀ entry ∈ rest, decide (entry.1 ≠ k) = true := by
        intro entry later
        rw [decide_eq_true_eq]
        rintro rfl
        exact fresh (mem_keys_of_mem later)
      simp only [erase, if_true, List.filter_cons, ne_eq, not_true, decide_false,
        Bool.false_eq_true, if_false]
      exact (List.filter_eq_self.mpr others).symm
    · simp [erase, same, ih apart]

theorem find?_erase_self {t : Table κ υ} (apart : (keys t).Nodup) (key : κ) :
    find? (erase t key) key = none := by
  induction t with
  | nil => rfl
  | cons entry rest ih =>
    obtain ⟨k, v⟩ := entry
    obtain ⟨fresh, apart⟩ := List.nodup_cons.mp apart
    by_cases same : k = key
    · subst same
      simpa [erase] using (find?_eq_none_iff rest k).mpr fresh
    · simpa [erase, find?, same] using ih apart

theorem find?_erase {t : Table κ υ} (apart : (keys t).Nodup) (key other : κ) :
    find? (erase t key) other = if other = key then none else find? t other := by
  by_cases same : other = key
  · subst same
    rw [if_pos rfl]
    exact find?_erase_self apart other
  · rw [find?_erase_of_ne t same, if_neg same]

def change (t : Table κ υ) (key : κ) : Option υ → Table κ υ
  | some value => put t key value
  | none => erase t key

theorem find?_change_of_ne (t : Table κ υ) {key other : κ} (new : Option υ) (ne : other ≠ key) :
    find? (change t key new) other = find? t other := by
  cases new with
  | some value => exact find?_put_of_ne t value ne
  | none => exact find?_erase_of_ne t ne

theorem change_cons_self (key : κ) (old : υ) (rest : Table κ υ) (new : Option υ) :
    change ((key, old) :: rest) key new = (new.map (key, ·)).toList ++ rest := by
  cases new <;> simp [change, put, erase]

theorem change_cons_of_ne {k key : κ} (ne : k ≠ key) (value : υ) (rest : Table κ υ)
    (new : Option υ) : change ((k, value) :: rest) key new = (k, value) :: change rest key new := by
  cases new <;> simp [change, put, erase, ne]

theorem change_comm {t : Table κ υ} {one two : κ} (ne : one ≠ two) (first : one ∈ keys t)
    (second : two ∈ keys t) (x y : Option υ) :
    change (change t one x) two y = change (change t two y) one x := by
  induction t with
  | nil => cases first
  | cons entry rest ih =>
    obtain ⟨k, v⟩ := entry
    have past {key : κ} (other : k ≠ key) (z : Option υ) (more : Table κ υ) (new : Option υ) :
        change ((z.map (k, ·)).toList ++ more) key new =
          (z.map (k, ·)).toList ++ change more key new := by
      cases z with
      | none => rfl
      | some value => exact change_cons_of_ne other value more new
    by_cases isOne : k = one
    · subst isOne
      rw [change_cons_self, change_cons_of_ne ne, change_cons_self, past ne]
    · by_cases isTwo : k = two
      · subst isTwo
        rw [change_cons_self, change_cons_of_ne isOne, change_cons_self, past isOne]
      · have earlier := (List.mem_cons.mp first).resolve_left (Ne.symm isOne)
        have later := (List.mem_cons.mp second).resolve_left (Ne.symm isTwo)
        rw [change_cons_of_ne isOne, change_cons_of_ne isTwo, change_cons_of_ne isTwo,
          change_cons_of_ne isOne, ih earlier later]

theorem map_find?_keys {t : Table κ υ} (apart : (keys t).Nodup) (other : υ) :
    (keys t).map (fun key => (key, (find? t key).getD other)) = t := by
  have own : ∀ entry ∈ t, (entry.1, (find? t entry.1).getD other) = entry := by
    intro entry member
    rw [find?_of_mem apart member, Option.getD_some]
  rw [keys, List.map_map]
  exact (List.map_congr_left own).trans (List.map_id t)

end GameRelay.Table
