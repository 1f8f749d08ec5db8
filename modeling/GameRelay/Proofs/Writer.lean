import GameRelay.Connection.Writer

/-!
# How far a writer comes

Over waiting items a writer calls its socket once for each message in front of the close marker,
and once more for the marker. It comes as far as its socket lets it: up to the first call that
fails, or to the end of what it has to hand over.
-/

set_option autoImplicit false
set_option relaxedAutoImplicit false

namespace GameRelay.Writer

/-- How the end of a run looks to whoever started the writer: it is done, it waits, or it comes out
with a failure that nobody has caught. -/
inductive Verdict
  | returns
  | waits
  | raises (fault : SocketFault)
  deriving DecidableEq

/-- Only a failure that no vanished peer causes comes out of a writer. -/
def Ending.verdict : Ending → Verdict
  | .closed => .returns
  | .idle | .holding _ => .waits
  | .failed fault => if fault.isExpected then .returns else .raises fault

/-- The messages in front of the close marker, or all messages when there is none. -/
def ahead (items : List Item) : List Message :=
  (items.takeWhile (· ≠ .close)).filterMap Item.message?

/-- The calls that a writer makes over waiting items as long as none of them fails. -/
def Due (items : List Item) (call : Nat) : Prop :=
  call < (ahead items).length ∨ call = (ahead items).length ∧ .close ∈ items

private theorem ahead_message_cons (m : Message) (items : List Item) :
    ahead (.message m :: items) = m :: ahead items := by
  simp [ahead, Item.message?]

theorem eq_ahead_append (items : List Item) :
    .close ∉ items ∧ items = (ahead items).map .message ∨
      ∃ later, items = (ahead items).map .message ++ .close :: later := by
  induction items with
  | nil => exact .inl ⟨nofun, rfl⟩
  | cons item rest ih =>
    cases item with
    | close => exact .inr ⟨rest, rfl⟩
    | message m =>
      rw [ahead_message_cons]
      rcases ih with ⟨unmarked, all⟩ | ⟨later, split⟩
      · refine .inl ⟨?_, congrArg (Item.message m :: ·) all⟩
        simpa using unmarked
      · exact .inr ⟨later, congrArg (Item.message m :: ·) split⟩

private theorem eq_ahead_append_of_last {items : List Item} (last : .close ∉ items.dropLast) :
    items = (ahead items).map .message ++ if .close ∈ items then [.close] else [] := by
  rcases eq_ahead_append items with ⟨unmarked, all⟩ | ⟨later, split⟩
  · rwa [if_neg unmarked, List.append_nil]
  · have marked : .close ∈ items := by
      rw [split]
      exact List.mem_append_right _ List.mem_cons_self
    rw [if_pos marked]
    cases later with
    | nil => exact split
    | cons next more =>
      refine absurd ?_ last
      rw [split, List.dropLast_append_cons, List.dropLast_cons_cons]
      exact List.mem_append_right _ List.mem_cons_self

theorem Due.split {items : List Item} {call : Nat} (due : Due items call) :
    ((ahead items).take call).length = call ∧
      ∃ item rest, items = ((ahead items).take call).map .message ++ item :: rest := by
  rcases due with among | ⟨rfl, marked⟩
  · refine ⟨List.length_take_of_le (Nat.le_of_lt among), ?_⟩
    have ends : (ahead items).map Item.message <+: items := by
      rcases eq_ahead_append items with ⟨_, all⟩ | ⟨later, split⟩
      · exact all ▸ List.prefix_refl _
      · exact ⟨_, split.symm⟩
    obtain ⟨later, split⟩ := ends
    have parts : (ahead items).map Item.message =
        ((ahead items).take call).map .message ++
          .message (ahead items)[call] :: ((ahead items).drop (call + 1)).map .message := by
      rw [← List.map_cons, ← List.drop_eq_getElem_cons among, ← List.map_append,
        List.take_append_drop]
    refine ⟨.message (ahead items)[call], ((ahead items).drop (call + 1)).map .message ++ later, ?_⟩
    rw [← List.cons_append, ← List.append_assoc, ← parts]
    exact split.symm
  · rw [List.take_length]
    refine ⟨rfl, ?_⟩
    rcases eq_ahead_append items with ⟨unmarked, _⟩ | ⟨later, split⟩
    · exact absurd marked unmarked
    · exact ⟨.close, later, split⟩

section
variable {socket : Nat → CallOutcome}

theorem run_map_append {call : Nat} (ms : List Message) (rest : List Item)
    (accepted : ∀ j < ms.length, socket (call + j) = .accepted) :
    run socket call (ms.map .message ++ rest) =
      { run socket (call + ms.length) rest with
        written := ms.map .message ++ (run socket (call + ms.length) rest).written } := by
  induction ms generalizing call with
  | nil => rfl
  | cons m more ih =>
    have first : socket call = .accepted := accepted 0 (Nat.succ_pos _)
    have others : ∀ j < more.length, socket (call + 1 + j) = .accepted := by
      intro j less
      rw [Nat.add_assoc, Nat.add_comm 1 j]
      exact accepted (j + 1) (Nat.succ_lt_succ less)
    rw [List.map_cons, List.cons_append, run_cons, first]
    dsimp only
    rw [ih others, List.length_cons, Nat.add_assoc call, Nat.add_comm 1]
    rfl

/-- A run whose call fails has handed over what came before, has lost the item in hand, and has left
the rest. -/
theorem run_of_failed {items : List Item} {call : Nat} {fault : SocketFault} (due : Due items call)
    (accepted : ∀ j < call, socket j = .accepted) (failed : socket call = .failed fault) :
    run socket 0 items =
      ⟨((ahead items).take call).map .message, .failed fault, items.drop (call + 1)⟩ := by
  obtain ⟨length, item, rest, split⟩ := due.split
  have calls : ∀ j < ((ahead items).take call).length, socket (0 + j) = .accepted := by
    rw [length]
    intro j less
    rw [Nat.zero_add]
    exact accepted j less
  have left : items.drop (call + 1) = rest := by
    generalize (ahead items).take call = before at length split
    rw [split, ← List.singleton_append, ← List.append_assoc]
    exact List.drop_left' (by simp [length])
  have runs := run_map_append _ (item :: rest) calls
  rw [← split, length, Nat.zero_add, run_cons, failed] at runs
  rw [runs, left, List.append_nil]

/-- A run none of whose calls fails hands over all messages in front of the marker and closes the
socket if there is one; without a marker it goes on waiting. -/
theorem run_of_accepted {items : List Item} (last : .close ∉ items.dropLast)
    (accepted : ∀ j, Due items j → socket j = .accepted) :
    run socket 0 items =
      if .close ∈ items then ⟨(ahead items).map .message ++ [.close normalClosure], .closed, []⟩
      else ⟨(ahead items).map .message, .idle, []⟩ := by
  have calls : ∀ j < (ahead items).length, socket (0 + j) = .accepted := by
    intro j less
    rw [Nat.zero_add]
    exact accepted j (.inl less)
  have runs := run_map_append (ahead items) (if .close ∈ items then [.close] else []) calls
  rw [← eq_ahead_append_of_last last, Nat.zero_add] at runs
  rw [runs]
  by_cases marked : .close ∈ items
  · rw [if_pos marked, if_pos marked, run_cons, accepted _ (.inr ⟨rfl, marked⟩)]
    rfl
  · rw [if_neg marked, if_neg marked]
    simp [run]

end

end GameRelay.Writer
