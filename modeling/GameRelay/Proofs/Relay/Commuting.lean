import GameRelay.Proofs.Relay.Departures
import GameRelay.Proofs.Relay.Reactions

/-!
# Different rooms do not disturb each other

Two clients that are concerned with different rooms change different rooms and different
connections, and neither changes what decides about the other. So they may act in either order, and
nothing but the order of the reports tells which of them came first.
-/

set_option autoImplicit false
set_option relaxedAutoImplicit false

namespace GameRelay

namespace Relay

private theorem onlyReports_of_peer {r next : Relay} (apart : r.known.Nodup)
    (known : next.known = r.known)
    (peer : ∀ k, next.peer k = r.peer k) (rooms : next.rooms = r.rooms)
    (codes : next.codes = r.codes) : r.OnlyReports next := by
  have listed {s : Relay} (apart : s.known.Nodup) :
      s.known.map (fun k => (k, s.peer k)) = s.peers :=
    Table.map_find?_keys apart (.new "" defaultCapacity)
  refine ⟨?_, rooms, codes⟩
  rw [← listed apart, ← listed (known ▸ apart), known]
  exact List.map_congr_left fun k _ => congrArg (Prod.mk k) (peer k)

end Relay

namespace Sessions

/-- Two clients may each do something that opens no room, and not both in the same room. -/
structure Independent (s : Sessions) (h : Handle) (a : Act) (k : Handle) (b : Act) : Prop where
  distinct : h ≠ k
  one : s.Allowed (a.step h)
  other : s.Allowed (b.step k)
  oneOpens : ¬s.relay.Opens h a
  otherOpens : ¬s.relay.Opens k b
  apart : ∀ room ∈ s.relay.addressed h a, room ∉ s.relay.addressed k b

theorem Independent.symm {s : Sessions} {h k : Handle} {a b : Act}
    (independent : s.Independent h a k b) : s.Independent k b h a where
  distinct := independent.distinct.symm
  one := independent.other
  other := independent.one
  oneOpens := independent.otherOpens
  otherOpens := independent.oneOpens
  apart room second first := independent.apart room first second

theorem active_of_allowed {s : Sessions} {h : Handle} {a : Act} (allowed : s.Allowed (a.step h)) :
    h ∈ s.relay.known ∧ h ∉ s.finished := by
  cases a <;> exact allowed

theorem follows_step {s : Sessions} {joined : Seat → Handle → Handle → Prop}
    (matched : s.relay.Matched s.finished joined) {h : Handle} {a : Act}
    (allowed : s.Allowed (a.step h)) (opens : ¬s.relay.Opens h a) :
    s.relay.Follows (s.after (a.step h)).relay (a.reaction h (s.relay.situation h a)) := by
  obtain ⟨known, present⟩ := active_of_allowed allowed
  cases a with
  | frame f => exact Relay.follows_frame matched known present opens
  | leave => exact Relay.follows_leave matched known present

section

variable {s : Sessions} {joined : Seat → Handle → Handle → Prop}
  (matched : s.relay.Matched s.finished joined) {h k : Handle} {a b : Act}
  (independent : s.Independent h a k b)

include matched independent

theorem outside_of_independent : ∀ room ∈ s.relay.addressed h a, k ∉ room.host :: room.members := by
  intro room target inside
  have live := matched.settled.live_of_addressed (active_of_allowed independent.one).1 target
  have own := (matched.settled.holder_eq_some_iff (active_of_allowed independent.other).1).mpr
    ⟨live, inside⟩
  refine independent.apart room target ?_
  rw [Relay.addressed, own]
  rfl

theorem peer_after_other : (s.after (a.step h)).relay.peer k = s.relay.peer k := by
  have follows := follows_step matched independent.one independent.oneOpens
  have confined := matched.settled.confined (active_of_allowed independent.one).1 a
  rw [follows.peer]
  exact confined.peer k independent.distinct.symm (outside_of_independent matched independent) _

/-- Under a code that leads at most to the room that one client addresses, the act of the other one
changes nothing. -/
theorem room?_after_other {code : Option String}
    (own : ∀ room, s.relay.room? code = some room → room ∈ s.relay.addressed k b) :
    (s.after (a.step h)).relay.room? code = s.relay.room? code := by
  have follows := follows_step matched independent.one independent.oneOpens
  have confined := matched.settled.confined (active_of_allowed independent.one).1 a
  cases code with
  | none => rfl
  | some code =>
    rw [Relay.room?, Relay.room?, follows.rooms, Reaction.rooms]
    split
    · rename_i changed new form
      obtain ⟨room, target, rfl⟩ := confined.room changed new form
      refine Table.find?_change_of_ne _ new ?_
      rintro rfl
      have live := matched.settled.live_of_addressed (active_of_allowed independent.one).1 target
      exact independent.apart room target (own room live)
    · rfl

theorem matched_after_other :
    (s.after (a.step h)).relay.Matched (s.after (a.step h)).finished fun _ _ _ => True :=
  matched_after matched independent.one (fun _ _ _ _ => trivial) fun _ _ _ _ _ _ => trivial

theorem allowed_after_other : (s.after (a.step h)).Allowed (b.step k) := by
  obtain ⟨known, present⟩ := active_of_allowed independent.other
  have follows := follows_step matched independent.one independent.oneOpens
  have still : k ∉ (s.after (a.step h)).finished := by
    cases a with
    | frame f => exact present
    | leave =>
      intro past
      rcases List.mem_cons.mp past with same | past
      · exact independent.distinct same.symm
      · exact present past
  cases b <;> exact ⟨follows.known ▸ known, still⟩

/-- An act changes nothing that decides about an act that is independent of it. -/
private theorem situation_after_other :
    (s.after (a.step h)).relay.situation k b = s.relay.situation k b := by
  obtain ⟨known, present⟩ := active_of_allowed independent.other
  obtain ⟨later, still⟩ := active_of_allowed (allowed_after_other matched independent)
  have next := matched_after_other matched independent
  have peer := peer_after_other matched independent
  have holder : (s.after (a.step h)).relay.holder k = s.relay.holder k := by
    rw [next.holder_eq later still, peer, matched.holder_eq known present]
    refine room?_after_other matched independent ?_
    intro room found
    rw [← matched.holder_eq known present] at found
    rw [Relay.addressed, found]
    rfl
  have sought : (s.after (a.step h)).relay.sought k b = s.relay.sought k b := by
    rw [Relay.sought, Relay.sought, peer]
    split_ifs with role
    · refine room?_after_other matched independent ?_
      intro room found
      rw [Relay.addressed, matched.settled.holder_of_unassigned known role, Relay.sought,
        if_pos role, found]
      rfl
    · rfl
  rw [Relay.situation, Relay.situation, Relay.idOf, Relay.idOf, peer, holder, sought]

/-- The later of two independent acts leads to the reaction that it would lead to alone. -/
theorem follows_after_other :
    (s.after (a.step h)).relay.Follows ((s.after (a.step h)).after (b.step k)).relay
      (b.reaction k (s.relay.situation k b)) := by
  have opens : ¬(s.after (a.step h)).relay.Opens k b := by
    rw [Relay.Opens, peer_after_other matched independent]
    exact independent.otherOpens
  rw [← situation_after_other matched independent]
  exact follows_step (matched_after_other matched independent)
    (allowed_after_other matched independent) opens

private theorem untouched_by_one (q : Handle) :
    (∀ c, (a.reaction h (s.relay.situation h a)).peer q c = c) ∨
      ∀ c, (b.reaction k (s.relay.situation k b)).peer q c = c := by
  have settled := matched.settled
  have knownOne := (active_of_allowed independent.one).1
  have knownOther := (active_of_allowed independent.other).1
  have one := settled.confined knownOne a
  have other := settled.confined knownOther b
  have outside := outside_of_independent matched independent
  by_cases first : q = h
  · subst q
    exact .inr (other.peer h independent.distinct
      (outside_of_independent matched independent.symm))
  · by_cases within : ∃ room ∈ s.relay.addressed h a, q ∈ room.host :: room.members
    · obtain ⟨room, target, inside⟩ := within
      have second : q ≠ k := by
        rintro rfl
        exact outside room target inside
      refine .inr (other.peer q second ?_)
      intro elsewhere aimed among
      -- nobody is in two rooms, so both acts would address one room
      have same := settled.eq_of_mem (settled.live_of_addressed knownOne target)
        (settled.live_of_addressed knownOther aimed) inside among
      exact independent.apart room target (same ▸ aimed)
    · refine .inl (one.peer q first ?_)
      intro room target inside
      exact within ⟨room, target, inside⟩

private theorem rooms_comm :
    (b.reaction k (s.relay.situation k b)).rooms
        ((a.reaction h (s.relay.situation h a)).rooms s.relay.rooms) =
      (a.reaction h (s.relay.situation h a)).rooms
        ((b.reaction k (s.relay.situation k b)).rooms s.relay.rooms) := by
  have settled := matched.settled
  have knownOne := (active_of_allowed independent.one).1
  have knownOther := (active_of_allowed independent.other).1
  have one := settled.confined knownOne a
  have other := settled.confined knownOther b
  unfold Reaction.rooms
  cases changed : (a.reaction h (s.relay.situation h a)).room with
  | none => rfl
  | some first =>
    cases replaced : (b.reaction k (s.relay.situation k b)).room with
    | none => rfl
    | some second =>
      obtain ⟨room, target, code⟩ := one.room first.1 first.2 changed
      obtain ⟨elsewhere, aimed, place⟩ := other.room second.1 second.2 replaced
      have live := settled.live_of_addressed knownOne target
      have also := settled.live_of_addressed knownOther aimed
      rw [code] at live
      rw [place] at also
      refine Table.change_comm ?_ (Table.mem_keys_of_mem (Table.mem_of_find? live))
        (Table.mem_keys_of_mem (Table.mem_of_find? also)) first.2 second.2
      intro same
      rw [same] at live
      have both := Option.some.inj (live.symm.trans also)
      exact independent.apart room target (both ▸ aimed)

/-- Independent acts may come in either order. -/
private theorem onlyReports_of_independent :
    ((s.after (a.step h)).after (b.step k)).relay.OnlyReports
      ((s.after (b.step k)).after (a.step h)).relay := by
  have symm := independent.symm
  have one := follows_step matched independent.one independent.oneOpens
  have oneOther := follows_after_other matched independent
  have other := follows_step matched independent.other independent.otherOpens
  have otherOne := follows_after_other matched symm
  have known := oneOther.known.trans one.known
  refine Relay.onlyReports_of_peer ?_ ?_ ?_ ?_ ?_
  · rw [known]
    exact matched.settled.nodup_known
  · rw [known]
    exact otherOne.known.trans other.known
  · intro q
    rw [otherOne.peer, other.peer, oneOther.peer, one.peer]
    rcases untouched_by_one matched independent q with still | still
    · rw [still, still]
    · rw [still, still]
  · rw [otherOne.rooms, other.rooms, oneOther.rooms, one.rooms]
    exact (rooms_comm matched independent).symm
  · rw [otherOne.codes, other.codes, oneOther.codes, one.codes]

end

/-- However sessions behind the endpoint have gone so far: two acts of different clients, neither of
which opens a room, that do not address the same room may come in either order. Rooms, connections
with all that waits in their outboxes, and the source of codes are the same afterwards. -/
theorem onlyReports_of_swapped (codes : CodeSource) (steps : List Step)
    (disciplined : (initial codes).Disciplined steps) {h k : Handle} {a b : Act} :
    let s := (initial codes).afterAll steps
    s.Independent h a k b →
      ((s.after (a.step h)).after (b.step k)).relay.OnlyReports
        ((s.after (b.step k)).after (a.step h)).relay := by
  intro s independent
  exact onlyReports_of_independent (matched_afterAll codes steps disciplined) independent

/-- Two rooms with a player in the second one. The outbox of the first host is full. -/
def twoRooms : List Step :=
  [.enter 0 "h" 1, .enter 1 "k" 4, .enter 2 "p" 4, .enter 3 "q" 4,
    .frame 0 (.text "\x7b\"type\":\"host\"\x7d"), .frame 1 (.text "\x7b\"type\":\"host\"\x7d"),
    .frame 2 (.text "\x7b\"type\":\"join\",\"roomCode\":\"b\"\x7d")]

/-- A client may join the first room before or after the host of the second one leaves. -/
theorem onlyReports_of_swapped_in_twoRooms :
    let s := (initial (.listed ["a", "b"])).afterAll twoRooms
    let join : Act := .frame (.text "\x7b\"type\":\"join\",\"roomCode\":\"a\"\x7d")
    s.relay.addressed 3 join = some ⟨"a", 0, [], []⟩ ∧
      s.relay.addressed 1 .leave = some ⟨"b", 1, [2], []⟩ ∧
      ((s.after (join.step 3)).after (Act.leave.step 1)).relay.OnlyReports
        ((s.after (Act.leave.step 1)).after (join.step 3)).relay := by
  intro s join
  have disciplined : (initial (.listed ["a", "b"])).Disciplined twoRooms := by decide +kernel
  have first : s.relay.addressed 3 join = some ⟨"a", 0, [], []⟩ := by decide +kernel
  have second : s.relay.addressed 1 .leave = some ⟨"b", 1, [2], []⟩ := by decide +kernel
  have independent : s.Independent 3 join 1 .leave := by
    refine ⟨by decide, by decide +kernel, by decide +kernel, by decide +kernel, by decide +kernel,
      ?_⟩
    rw [first, second]
    rintro room ⟨⟩
    decide
  exact ⟨first, second, onlyReports_of_swapped _ twoRooms disciplined independent⟩

end Sessions

end GameRelay
