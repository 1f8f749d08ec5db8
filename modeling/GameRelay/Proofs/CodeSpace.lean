import GameRelay.Proofs.RoomCode
import Mathlib.Data.Fintype.BigOperators
import Mathlib.Data.Fintype.Vector

/-!
# The codes of a length

The codes with some number of places are the texts of that length over the alphabet. A random
source can give each of them and nothing else, whatever it gave before; when its length is out of
range, it gives none.
-/

set_option autoImplicit false
set_option relaxedAutoImplicit false

namespace GameRelay

namespace RoomCode

def Shaped (n : Nat) (code : String) : Prop := code.length = n ∧ ∀ c ∈ code.toList, c ∈ alphabet

private theorem letter_injective : Function.Injective letter := by
  unfold Function.Injective
  decide +kernel

theorem exists_letter_eq_iff (c : Char) : (∃ place, letter place = c) ↔ c ∈ alphabet := by
  constructor
  · rintro ⟨place, rfl⟩
    exact List.getElem_mem _
  · intro member
    obtain ⟨place, low, rfl⟩ := List.getElem_of_mem member
    exact ⟨⟨place, low⟩, rfl⟩

theorem toList_ofPlaces (places : List (Fin 36)) :
    (ofPlaces places).toList = places.map letter :=
  String.toList_ofList

private theorem ofPlaces_injective : Function.Injective ofPlaces := by
  intro one two same
  have letters := congrArg String.toList same
  rw [toList_ofPlaces, toList_ofPlaces] at letters
  exact letter_injective.list_map letters

theorem shaped_iff (n : Nat) (code : String) :
    Shaped n code ↔ ∃ places : List (Fin 36), places.length = n ∧ ofPlaces places = code := by
  constructor
  · rintro ⟨rfl, inside⟩
    have range : ∀ c ∈ code.toList, c ∈ Set.range letter := by
      intro c member
      exact (exists_letter_eq_iff c).mpr (inside c member)
    obtain ⟨places, letters⟩ : code.toList ∈ Set.range (List.map letter) := by
      rw [Set.range_list_map]
      exact range
    refine ⟨places, ?_, ?_⟩
    · rw [← String.length_toList, ← letters, List.length_map]
    · rw [ofPlaces, letters, String.ofList_toList]
  · rintro ⟨places, rfl, rfl⟩
    rw [Shaped, ← String.length_toList, toList_ofPlaces]
    refine ⟨List.length_map letter, ?_⟩
    intro c member
    obtain ⟨place, -, rfl⟩ := List.mem_map.mp member
    exact (exists_letter_eq_iff _).mp ⟨place, rfl⟩

def space (n : Nat) : Finset String :=
  Finset.univ.image fun places : List.Vector (Fin 36) n => ofPlaces places.toList

theorem mem_space_iff (n : Nat) (code : String) : code ∈ space n ↔ Shaped n code := by
  rw [space, Finset.mem_image, shaped_iff]
  constructor
  · rintro ⟨places, -, rfl⟩
    exact ⟨places.toList, places.toList_length, rfl⟩
  · rintro ⟨places, length, rfl⟩
    exact ⟨⟨places, length⟩, Finset.mem_univ _, rfl⟩

theorem card_space (n : Nat) : (space n).card = 36 ^ n := by
  have apart : Function.Injective fun places : List.Vector (Fin 36) n =>
      ofPlaces places.toList :=
    fun _ _ same => List.Vector.toList_injective (ofPlaces_injective same)
  rw [space, Finset.card_image_of_injective _ apart, Finset.card_univ, card_vector,
    Fintype.card_fin]

theorem exists_shaped_not_mem {n : Nat} {codes : List String} (few : codes.length < 36 ^ n) :
    ∃ code, Shaped n code ∧ code ∉ codes := by
  have less : codes.toFinset.card < (space n).card := by
    rw [card_space]
    exact codes.toFinset_card_le.trans_lt few
  obtain ⟨code, inside, free⟩ := Finset.exists_mem_notMem_of_card_lt_card less
  exact ⟨code, (mem_space_iff n code).mp inside, fun member => free (List.mem_toFinset.mpr member)⟩

theorem mem_of_shaped {n : Nat} {codes : List String} (apart : codes.Nodup)
    (shaped : ∀ code ∈ codes, Shaped n code) (many : 36 ^ n ≤ codes.length) {code : String}
    (inside : Shaped n code) : code ∈ codes := by
  have within : codes.toFinset ⊆ space n := by
    intro other member
    exact (mem_space_iff n other).mpr (shaped other (List.mem_toFinset.mp member))
  have whole : codes.toFinset = space n := by
    refine Finset.eq_of_subset_of_card_le within ?_
    rw [card_space, List.toFinset_card_of_nodup apart]
    exact many
  rw [← List.mem_toFinset, whole]
  exact (mem_space_iff n code).mpr inside

theorem places?_of_range {length : Int} (low : -2 ^ 63 ≤ length) (high : length < 2 ^ 63) :
    places? length = some length.toNat :=
  if_pos ⟨low, high⟩

theorem places?_of_outside {length : Int} (outside : length < -2 ^ 63 ∨ 2 ^ 63 ≤ length) :
    places? length = none := by
  refine if_neg ?_
  rintro ⟨low, high⟩
  rcases outside with below | above
  · exact absurd low (Int.not_le.mpr below)
  · exact absurd high (Int.not_lt.mpr above)

private theorem eq_toNat_of_places {length : Int} {n : Nat} (places : places? length = some n) :
    n = length.toNat := by
  unfold places? at places
  split at places
  · exact (Option.some.inj places).symm
  · cases places

end RoomCode

namespace CodeSource

variable {taken : String → Bool} {length : Int} {draws : List (Fin 36)}

theorem next_random_eq (length : Int) (draws : List (Fin 36)) :
    ∃ later, (random length draws).next.2 = .random length later := by
  rw [next]
  split
  · exact ⟨draws, rfl⟩
  · split
    · exact ⟨_, rfl⟩
    · exact ⟨[], rfl⟩

/-- A random source stays one, of the same length, however long it is searched. -/
theorem rest_search_random (taken : String → Bool) (length : Int) (draws : List (Fin 36)) :
    ∃ later, ((random length draws).search taken).rest = .random length later := by
  generalize source_eq : random length draws = source
  fun_induction source.search taken generalizing draws with
  | case1 source fault rest next =>
    subst source
    obtain ⟨later, same⟩ := next_random_eq length draws
    exact ⟨later, by rw [← same, next]⟩
  | case2 source first rest next isTaken less found ih =>
    subst source
    obtain ⟨later, same⟩ := next_random_eq length draws
    exact ih later (by rw [← same, next])
  | case3 source first rest next isTaken more =>
    subst source
    obtain ⟨later, same⟩ := next_random_eq length draws
    exact ⟨later, by rw [← same, next]⟩
  | case4 source first rest next isFree =>
    subst source
    obtain ⟨later, same⟩ := next_random_eq length draws
    exact ⟨later, by rw [← same, next]⟩

private theorem shaped_of_next {code : String} (given : (random length draws).next.1 = .ok code) :
    RoomCode.Shaped length.toNat code := by
  rw [next] at given
  split at given
  · cases given
  · rename_i n places
    split at given
    · rename_i enough
      cases given
      rw [RoomCode.eq_toNat_of_places places] at enough ⊢
      exact (RoomCode.shaped_iff _ _).mpr ⟨_, List.length_take_of_le enough, rfl⟩
    · cases given

theorem Gives.shaped {code : String} (gives : (random length draws).Gives taken code) :
    RoomCode.Shaped length.toNat code := by
  generalize source_eq : random length draws = source at gives
  induction gives generalizing draws with
  | now next isFree =>
    subst source_eq
    exact shaped_of_next (by rw [next])
  | later next isTaken gives ih =>
    subst source_eq
    obtain ⟨later, same⟩ := next_random_eq length draws
    exact ih (by rw [← same, next])

theorem exists_gives {n : Nat} (places : RoomCode.places? length = some n) {code : String}
    (inside : RoomCode.Shaped n code) (isFree : taken code = false) :
    ∃ draws, (random length draws).Gives taken code := by
  obtain ⟨draws, rfl, rfl⟩ := (RoomCode.shaped_iff n code).mp inside
  have given : (random length draws).next = (.ok (RoomCode.ofPlaces draws), random length []) := by
    simp [next, places]
  exact ⟨draws, .now given isFree⟩

end CodeSource

end GameRelay
