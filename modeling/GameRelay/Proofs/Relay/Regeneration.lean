import GameRelay.Proofs.CodeSpace
import GameRelay.Proofs.Relay.Deeds

/-!
# When a free code can be found

A random source repeats itself, and a search goes on until it gives a free code. Some draws end the
search as long as a code of the length is free. While rooms have had no other codes, this is so
until there are as many rooms as codes: with a length of zero or less, until there is one.
-/

set_option autoImplicit false
set_option relaxedAutoImplicit false

namespace GameRelay

/-- A deed that leaves the source of codes a random one of some length. -/
def Deed.Draws (length : Int) : Deed → Prop
  | .call (.refill codes) => ∃ draws, codes = .random length draws
  | _ => True

namespace Relay

variable {r : Relay} {d : Deed} {length : Int}

/-- The relay with a random source of some length, from which the given draws are to come. -/
def drawing (r : Relay) (length : Int) (draws : List (Fin 36)) : Relay :=
  { r with codes := .random length draws }

/-- Some draws make a search for a free code return. -/
def CanGenerate (r : Relay) (length : Int) : Prop :=
  ∃ draws code next, generateCode.run (r.drawing length draws) = .ok code next

/-- When a search among the codes of a length can return, and with what. -/
structure Regenerates (r : Relay) (length : Int) : Prop where
  returns_iff : r.CanGenerate length ↔
    ∃ code, RoomCode.Shaped length.toNat code ∧ code ∉ r.liveCodes
  shaped : ∀ draws code next, generateCode.run (r.drawing length draws) = .ok code next →
    RoomCode.Shaped length.toNat code
  roomy : r.rooms.length < 36 ^ length.toNat → r.CanGenerate length
  full : (∀ code, RoomCode.Shaped length.toNat code → code ∈ r.liveCodes) →
    ∀ draws code next, generateCode.run (r.drawing length draws) ≠ .ok code next

theorem generates_iff {draws : List (Fin 36)} {code : String} :
    (∃ next, generateCode.run (r.drawing length draws) = .ok code next) ↔
      (CodeSource.random length draws).Gives (Table.contains r.rooms) code := by
  rw [run_generateCode, ← CodeSource.outcome_search_eq_found_iff]
  have search : (r.drawing length draws).codeSearch =
      (CodeSource.random length draws).search (Table.contains r.rooms) := rfl
  rw [search]
  cases ((CodeSource.random length draws).search (Table.contains r.rooms)).outcome <;> simp

theorem shaped_of_generates {draws : List (Fin 36)} {code : String} {next : Relay}
    (run : generateCode.run (r.drawing length draws) = .ok code next) :
    RoomCode.Shaped length.toNat code ∧ code ∉ r.liveCodes := by
  have gives := generates_iff.mp ⟨next, run⟩
  have found := CodeSource.outcome_search_eq_found_iff.mpr gives
  exact ⟨gives.shaped, (r.contains_rooms_eq_false_iff code).mp (CodeSource.free_of_search found)⟩

theorem canGenerate_of_free {n : Nat} (places : RoomCode.places? length = some n) {code : String}
    (inside : RoomCode.Shaped n code) (free : code ∉ r.liveCodes) : r.CanGenerate length := by
  obtain ⟨draws, gives⟩ :=
    CodeSource.exists_gives places inside ((r.contains_rooms_eq_false_iff code).mpr free)
  obtain ⟨next, run⟩ := generates_iff.mpr gives
  exact ⟨draws, code, next, run⟩

theorem regenerates_of_places (places : RoomCode.places? length = some length.toNat) :
    r.Regenerates length := by
  refine ⟨⟨?_, ?_⟩, fun draws code next run => (shaped_of_generates run).1, ?_, ?_⟩
  · rintro ⟨draws, code, next, run⟩
    exact ⟨code, shaped_of_generates run⟩
  · rintro ⟨code, inside, free⟩
    exact canGenerate_of_free places inside free
  · intro few
    have codes : r.liveCodes.length = r.rooms.length := List.length_map _
    obtain ⟨code, inside, free⟩ := RoomCode.exists_shaped_not_mem (codes ▸ few)
    exact canGenerate_of_free places inside free
  · intro all draws code next run
    obtain ⟨inside, free⟩ := shaped_of_generates run
    exact free (all code inside)

theorem generates_nothing_of_outside (r : Relay) (outside : length < -2 ^ 63 ∨ 2 ^ 63 ≤ length)
    (draws : List (Fin 36)) :
    ∃ next, generateCode.run (r.drawing length draws) =
      .error (.source .lengthOutOfRange) next := by
  have none := RoomCode.places?_of_outside outside
  have outcome : (r.drawing length draws).codeSearch.outcome = .failed .lengthOutOfRange := by
    have refused : (CodeSource.random length draws).next =
        (.error .lengthOutOfRange, .random length draws) := by
      simp [CodeSource.next, none]
    exact CodeSource.outcome_search_eq_failed_iff.mpr (.now refused)
  exact ⟨_, by rw [run_generateCode, outcome]⟩

private theorem codes_of_effect {asked : Option Call} {next : Relay}
    (effect : r.Effect asked next) :
    next.codes = r.codes ∨ next.codes = r.codeSearch.rest ∨ asked = some (.refill next.codes) := by
  cases effect with
  | searchedInVain h role vain => exact .inr (.inl rfl)
  | opened h code role found => exact .inr (.inl (codes_opened _ h code))
  | refilled codes => exact .inr (.inr rfl)
  | ignoredInput h payload next quiet => rcases quiet with rfl | ⟨e, rfl⟩ <;> exact .inl rfl
  | _ => exact .inl (by simp)

theorem codes_afterDeed (filed : r.Filed) (d : Deed) :
    (r.afterDeed d).codes = r.codes ∨ (r.afterDeed d).codes = r.codeSearch.rest ∨
      d = .call (.refill (r.afterDeed d).codes) := by
  cases d with
  | draw =>
    rw [afterDeed_draw]
    exact .inr (.inl rfl)
  | delete code =>
    rw [afterDeed_delete]
    left
    split <;> rfl
  | call call =>
    refine (codes_of_effect (effect_after filed call)).imp_right (Or.imp_right ?_)
    intro asks
    cases call with
    | frame h f => rcases ask_cases asks with same | ⟨_, _, same⟩ | ⟨_, same⟩ <;> cases same
    | _ => exact congrArg Deed.call (Option.some.inj asks)

/-- The source of codes is a random one of some length, and all live rooms have codes of it. -/
structure Coded (r : Relay) (length : Int) : Prop where
  source : ∃ draws, r.codes = .random length draws
  shaped : ∀ code ∈ r.liveCodes, RoomCode.Shaped length.toNat code

theorem Coded.afterDeed (coded : r.Coded length) (settled : r.Settled) (allowed : r.Allows d)
    (draws : d.Draws length) : (r.afterDeed d).Coded length := by
  obtain ⟨given, source⟩ := coded.source
  constructor
  · rcases codes_afterDeed settled.filed d with same | rest | refilled
    · exact ⟨given, same.trans source⟩
    · rw [rest, codeSearch, source]
      exact CodeSource.rest_search_random _ length given
    · rw [refilled] at draws
      exact draws
  · intro code live
    by_cases old : code ∈ r.liveCodes
    · exact coded.shaped code old
    · -- the room is new, so the source has given its code
      have free := (Table.find?_eq_none_iff r.rooms code).mpr old
      obtain ⟨room, found⟩ : ∃ room, Table.find? (r.afterDeed d).rooms code = some room := by
        rw [← Option.isSome_iff_exists]
        exact (contains_rooms_iff _ code).mpr live
      have opens := opened?_of_new settled allowed free found
      obtain ⟨h, -, -, outcome, -⟩ := newcomer_of_opened opens
      rw [(settled_afterDeed settled allowed).filed code room found, codeSearch, source,
        CodeSource.outcome_search_eq_found_iff] at outcome
      exact outcome.shaped

theorem Coded.afterDeeds (coded : r.Coded length) (settled : r.Settled) {ds : List Deed}
    (allowed : r.AllowsAll ds) (draws : ∀ d ∈ ds, d.Draws length) :
    (r.afterDeeds ds).Coded length := by
  induction ds generalizing r with
  | nil => exact coded
  | cons d rest ih =>
    obtain ⟨first, draws⟩ := List.forall_mem_cons.mp draws
    exact ih (coded.afterDeed settled allowed.1 first) (settled_afterDeed settled allowed.1)
      allowed.2 draws

theorem coded_initial (length : Int) (draws : List (Fin 36)) :
    (initial (.random length draws)).Coded length :=
  ⟨⟨draws, rfl⟩, nofun⟩

/-- When all live rooms have codes of the length, a search can return until there are as many rooms
as codes. -/
theorem Coded.canGenerate_iff (coded : r.Coded length) (settled : r.Settled)
    (places : RoomCode.places? length = some length.toNat) :
    r.CanGenerate length ↔ r.rooms.length < 36 ^ length.toNat := by
  have regenerates : r.Regenerates length := regenerates_of_places places
  refine ⟨?_, regenerates.roomy⟩
  rintro ⟨draws, code, next, run⟩
  by_contra many
  have codes : r.liveCodes.length = r.rooms.length := List.length_map _
  refine regenerates.full ?_ draws code next run
  intro other inside
  exact RoomCode.mem_of_shaped settled.keys coded.shaped (codes ▸ Nat.not_lt.mp many) inside

/-- With a length of 64 bits, a free code can be found exactly as long as there is one, and a relay
that has had no other source has one exactly as long as it has fewer rooms than there are codes. A
length that is out of range gives no code at all. -/
theorem regenerates (length : Int) :
    (length < -2 ^ 63 ∨ 2 ^ 63 ≤ length → ∀ (r : Relay) (draws : List (Fin 36)),
      ∃ next, generateCode.run (r.drawing length draws) =
        .error (.source .lengthOutOfRange) next) ∧
      (-2 ^ 63 ≤ length → length < 2 ^ 63 →
        (∀ r : Relay, r.Regenerates length) ∧
          ∀ draws deeds, (initial (.random length draws)).AllowsAll deeds →
            (∀ d ∈ deeds, d.Draws length) →
              (((initial (.random length draws)).afterDeeds deeds).CanGenerate length ↔
                ((initial (.random length draws)).afterDeeds deeds).rooms.length <
                  36 ^ length.toNat)) := by
  refine ⟨fun outside r => r.generates_nothing_of_outside outside, ?_⟩
  intro low high
  have places := RoomCode.places?_of_range low high
  refine ⟨fun r => regenerates_of_places places, ?_⟩
  intro draws deeds allowed drawn
  have settled := settled_initial (.random length draws)
  exact ((coded_initial length draws).afterDeeds settled allowed drawn).canGenerate_iff
    (settled_afterDeeds settled allowed) places

/-- One room is opened, and one client more has come. -/
def lone : List Deed := ([.arrive 0 "h" 4, .host 0, .arrive 1 "k" 4] : List Call).map .call

/-- When codes have no places, one room has the only one. With one place, another code is free. -/
theorem regenerates_after_lone :
    let r := (initial (.random 0 [])).afterDeeds lone
    (initial (.random 0 [])).AllowsAll lone ∧ r.rooms = [("", .new "" 0)] ∧
      ¬r.CanGenerate 0 ∧ r.CanGenerate 1 ∧
      ∃ next, generateCode.run (r.drawing (2 ^ 63) [0]) =
        .error (.source .lengthOutOfRange) next := by
  intro r
  have allowed : (initial (.random 0 [])).AllowsAll lone := by decide +kernel
  have rooms : r.rooms = [("", .new "" 0)] := by decide +kernel
  have drawn : ∀ d ∈ lone, d.Draws 0 := by simp [lone, Deed.Draws]
  refine ⟨allowed, rooms, ?_, ?_, (regenerates (2 ^ 63)).1 (.inr (by decide)) r [0]⟩
  · rw [((regenerates 0).2 (by decide) (by decide)).2 [] lone allowed drawn]
    have full : r.rooms.length = 1 := by rw [rooms]; rfl
    exact full ▸ Nat.lt_irrefl 1
  · refine (((regenerates 1).2 (by decide) (by decide)).1 r).roomy ?_
    rw [rooms]
    decide

/-- A length that is below the range counts as zero for texts, yet no draws give the empty code. -/
theorem not_canGenerate_below_range :
    ¬∀ (length : Int) (r : Relay), r.CanGenerate length ↔
      ∃ code, RoomCode.Shaped (max length 0).toNat code ∧ code ∉ r.liveCodes := by
  intro all
  have empty : RoomCode.Shaped (max (-9223372036854775809) 0 : Int).toNat "" := ⟨rfl, nofun⟩
  obtain ⟨draws, code, next, run⟩ :=
    (all (-9223372036854775809) (initial (.random (-9223372036854775809) []))).mpr
      ⟨"", empty, nofun⟩
  have below : (-9223372036854775809 : Int) < -2 ^ 63 := by decide
  obtain ⟨other, fails⟩ := generates_nothing_of_outside
    (initial (.random (-9223372036854775809) [])) (.inl below) draws
  cases run.symm.trans fails

end Relay

end GameRelay
