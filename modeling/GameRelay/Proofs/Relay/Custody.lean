import GameRelay.Proofs.Relay.Reception

/-!
# What becomes of the items of an outbox

A connection may be sent messages, closed, noted as gone, drained and written out in any order, and
the calls of its socket may fail or stay pending. A ledger notes which items its outbox accepts, in
which order and for which reason they leave it, and what its writer hands over. The ledger balances
at all times: every accepted item has left once or waits, and those that wait came last. Once the
connection is not open any more, nothing is accepted ever again.
-/

set_option autoImplicit false
set_option relaxedAutoImplicit false

namespace GameRelay

namespace Outbox

/-- What one more item pushes out. -/
def ousted (o : Outbox) : List Item := if o.isFull then o.items.take 1 else []

theorem ousted_append_push (o : Outbox) (item : Item) :
    o.ousted ++ (o.push item).items = o.items ++ [item] := by
  have items : (o.push item).items = o.itemsAfter item := rfl
  rw [items, itemsAfter, ousted]
  split
  · rw [← List.append_assoc, ← List.drop_one, List.take_append_drop]
  · rfl

theorem dropped_push (o : Outbox) (item : Item) :
    (o.push item).dropped = o.dropped + o.ousted.length := by
  have dropped : (o.push item).dropped = if o.isFull then o.dropped + 1 else o.dropped := rfl
  rw [dropped, ousted]
  by_cases full : o.isFull
  · have reached := o.isFull_iff.mp full
    simp only [full, if_true, List.length_take]
    omega
  · simp [full]

private theorem mem_of_ousted {o : Outbox} {item : Item} (member : item ∈ o.ousted) :
    item ∈ o.items := by
  unfold ousted at member
  split at member
  · exact List.mem_of_mem_take member
  · cases member

private theorem ousted_of_unbounded {o : Outbox} (unbounded : o.capacity ≤ 0) : o.ousted = [] := by
  apply if_neg
  intro full
  have reached := o.isFull_iff.mp full
  omega

end Outbox

namespace Writer

/-- A run takes the oldest items. Each of them was handed over, is in hand, or was lost in a call
that failed. -/
private theorem taken_run (socket : Nat → CallOutcome) (call : Nat) (items : List Item) :
    let run := Writer.run socket call items
    ∃ taken, taken ++ run.left = items ∧
      (run.written ++ run.ending.held.toList.map Item.transmission).Sublist
        (taken.map Item.transmission) ∧
      taken.length = run.written.length + run.ending.held.toList.length +
        run.ending.isFailure.toNat := by
  induction items generalizing call with
  | nil => exact ⟨[], rfl, List.Sublist.refl _, rfl⟩
  | cons item rest ih =>
    rw [run_cons]
    cases socket call with
    | failed fault => exact ⟨[item], rfl, List.nil_sublist _, rfl⟩
    | pending => exact ⟨[item], rfl, List.Sublist.refl _, rfl⟩
    | accepted =>
      cases item with
      | close => exact ⟨[.close], rfl, List.Sublist.refl _, rfl⟩
      | message m =>
        obtain ⟨taken, split, part, count⟩ := ih (call + 1)
        refine ⟨.message m :: taken, congrArg (Item.message m :: ·) split, part.cons_cons _, ?_⟩
        simp only [List.length_cons]
        omega

theorem taken_run_queue (socket : Nat → CallOutcome) (held : Option Item) (waiting : List Item) :
    let run := Writer.run socket 0 (queue held waiting)
    ∃ taken, taken ++ run.left = waiting ∧
      (run.written ++ run.ending.held.toList.map Item.transmission).Sublist
        ((held.toList ++ taken).map Item.transmission) ∧
      held.toList.length + taken.length = run.written.length + run.ending.held.toList.length +
        run.ending.isFailure.toNat := by
  intro run
  obtain ⟨taken, split, part, count⟩ := taken_run socket 0 (queue held waiting)
  have fewer : run.left.length ≤ waiting.length := length_left_run_queue_le socket held waiting
  cases held with
  | none => exact ⟨taken, split, part, (Nat.zero_add _).trans count⟩
  | some item =>
    cases taken with
    | nil =>
      have all : run.left = item :: waiting := split
      rw [all, List.length_cons] at fewer
      omega
    | cons first rest =>
      obtain ⟨rfl, split⟩ := List.cons.inj split
      exact ⟨rest, split, part, (Nat.add_comm _ _).trans count⟩

end Writer

inductive Use
  | send (m : Message)
  | close
  | detach
  | drain
  | write (socket : Nat → CallOutcome)

/-- How an item leaves an outbox. -/
inductive Exit
  | dropped
  | taken
  | drained
  deriving DecidableEq

structure Ledger where
  relay : Relay
  held : Option Item
  accepted : List Item
  /-- What has left the outbox, in order. -/
  gone : List (Exit × Item)
  written : List Transmission
  /-- How many calls of the socket have failed. -/
  failures : Nat
  /-- What draining has returned. -/
  returned : List Message

namespace Ledger

def opened (r : Relay) : Ledger := ⟨r, none, [], [], [], 0, []⟩

def waiting (l : Ledger) (h : Handle) : List Item := (l.relay.peer h).outbox.items

def left (l : Ledger) (exit : Exit) : List Item :=
  (l.gone.filter fun entry => entry.1 = exit).map Prod.snd

/-- Some items were accepted, and now the relay is another one. What is missing from the front of
the outbox has left in one way. -/
def moved (l : Ledger) (h : Handle) (next : Relay) (came : List Item) (exit : Exit) : Ledger :=
  let queue := l.waiting h ++ came
  let missing := queue.length - (next.peer h).outbox.items.length
  { l with
    relay := next
    accepted := l.accepted ++ came
    gone := l.gone ++ (queue.take missing).map fun item => (exit, item) }

def after (l : Ledger) (h : Handle) : Use → Ledger
  | .send m =>
    match (Relay.send h m).run l.relay with
    | .ok _ next => l.moved h next [.message m] .dropped
    | .error _ next => l.moved h next [] .dropped
  | .close =>
    l.moved h (l.relay.after (.close h)) (if (l.relay.peer h).isOpen then [.close] else []) .dropped
  | .detach => l.moved h (l.relay.after (.detach h)) [] .dropped
  | .drain =>
    match (Relay.drain h).run l.relay with
    | .ok messages next =>
      { l.moved h next [] .drained with returned := l.returned ++ messages }
    | .error _ next => l.moved h next [] .drained
  | .write socket =>
    match (Relay.runWriter h socket l.held).run l.relay with
    | .ok run next =>
      { l.moved h next [] .taken with
        held := run.ending.held
        written := l.written ++ run.written
        failures := l.failures + run.ending.isFailure.toNat }
    | .error _ next => l.moved h next [] .taken

def afterAll (l : Ledger) (h : Handle) (uses : List Use) : Ledger :=
  uses.foldl (fun l use => l.after h use) l

theorem moved_eq {l : Ledger} {h : Handle} {next : Relay} {came out : List Item} (exit : Exit)
    (split : out ++ (next.peer h).outbox.items = l.waiting h ++ came) :
    l.moved h next came exit =
      { l with
        relay := next
        accepted := l.accepted ++ came
        gone := l.gone ++ out.map fun item => (exit, item) } := by
  rw [moved, ← split, List.length_append, Nat.add_sub_cancel, List.take_left]

theorem moved_idle {l : Ledger} {h : Handle} {next : Relay} (exit : Exit)
    (same : (next.peer h).outbox.items = l.waiting h) :
    l.moved h next [] exit = { l with relay := next } := by
  have split : [] ++ (next.peer h).outbox.items = l.waiting h ++ [] :=
    same.trans (List.append_nil _).symm
  rw [moved_eq exit split]
  simp

/-- An item was accepted, and now the relay is another one. -/
def entered (l : Ledger) (h : Handle) (next : Relay) (item : Item) : Ledger :=
  { l with
    relay := next
    accepted := l.accepted ++ [item]
    gone := l.gone ++ (l.relay.peer h).outbox.ousted.map fun item => (.dropped, item) }

theorem moved_entered {l : Ledger} {h : Handle} {next : Relay} {item : Item}
    (outbox : (next.peer h).outbox = (l.relay.peer h).outbox.push item) :
    l.moved h next [item] .dropped = l.entered h next item := by
  apply moved_eq
  rw [outbox, Outbox.ousted_append_push]
  rfl

theorem after_send (l : Ledger) (h : Handle) (m : Message) :
    l.after h (.send m) =
      if (l.relay.peer h).isOpen then l.entered h (l.relay.accepted h (.message m)) (.message m)
      else l := by
  have run := l.relay.run_send h m
  rw [after]
  by_cases isOpen : (l.relay.peer h).isOpen
  · rw [if_pos isOpen] at run ⊢
    rw [run]
    exact moved_entered (l.relay.outbox_accepted h (.message m))
  · rw [if_neg isOpen] at run ⊢
    rw [run]
    exact moved_idle .dropped rfl

theorem after_close (l : Ledger) (h : Handle) :
    l.after h .close =
      if (l.relay.peer h).isOpen then l.entered h (l.relay.closed h) .close else l := by
  rw [after, Relay.after_close]
  by_cases isOpen : (l.relay.peer h).isOpen
  · rw [if_pos isOpen, if_pos isOpen]
    exact moved_entered (Relay.outbox_closed isOpen)
  · rw [if_neg isOpen, if_neg isOpen, Relay.closed, if_neg isOpen]
    exact moved_idle .dropped rfl

theorem after_detach (l : Ledger) (h : Handle) :
    l.after h .detach =
      { l with relay := l.relay.setPeer h { l.relay.peer h with isOpen := false } } := by
  apply moved_idle
  show ((l.relay.setPeer h { l.relay.peer h with isOpen := false }).peer h).outbox.items = _
  rw [Relay.peer_setPeer_self]
  rfl

/-- Everything that waited was drained, and now the relay is another one. -/
def drained (l : Ledger) (h : Handle) (next : Relay) : Ledger :=
  { l with
    relay := next
    gone := l.gone ++ (l.waiting h).map fun item => (.drained, item)
    returned := l.returned ++ (l.waiting h).filterMap Item.message? }

theorem after_drain (l : Ledger) (h : Handle) :
    l.after h .drain = l.drained h (l.relay.setPeer h
      { l.relay.peer h with outbox := (l.relay.peer h).outbox.clear }) := by
  have run : (Relay.drain h).run l.relay =
      .ok ((l.waiting h).filterMap Item.message?) (l.relay.setPeer h
        { l.relay.peer h with outbox := (l.relay.peer h).outbox.clear }) := rfl
  have split : l.waiting h ++ ((l.relay.setPeer h
      { l.relay.peer h with outbox := (l.relay.peer h).outbox.clear }).peer h).outbox.items =
        l.waiting h ++ [] := by
    rw [Relay.peer_setPeer_self]
    rfl
  rw [after, run]
  dsimp only
  rw [moved_eq .drained split, List.append_nil]
  rfl

/-- A writer has run and taken some items, and now the relay is another one. -/
def wrote (l : Ledger) (next : Relay) (run : Writer.Run) (taken : List Item) : Ledger :=
  { l with
    relay := next
    held := run.ending.held
    gone := l.gone ++ taken.map fun item => (.taken, item)
    written := l.written ++ run.written
    failures := l.failures + run.ending.isFailure.toNat }

theorem after_write (l : Ledger) (h : Handle) (socket : Nat → CallOutcome) {taken : List Item}
    (split : taken ++ (Writer.run socket 0 (Writer.queue l.held (l.waiting h))).left =
      l.waiting h) :
    l.after h (.write socket) = l.wrote (l.relay.written h socket l.held)
      (Writer.run socket 0 (Writer.queue l.held (l.waiting h))) taken := by
  have rest : taken ++ ((l.relay.written h socket l.held).peer h).outbox.items =
      l.waiting h ++ [] := by
    rw [Relay.peer_written_self, Connection.outbox_written, List.append_nil]
    exact split
  rw [after, Relay.run_runWriter]
  dsimp only
  rw [moved_eq .taken rest, List.append_nil]
  rfl

theorem map_of_gone {l next : Ledger} {way : Exit} {out : List Item}
    (gone : next.gone = l.gone ++ out.map fun item => (way, item)) :
    next.gone.map Prod.snd = l.gone.map Prod.snd ++ out := by
  rw [gone, List.map_append]
  simp [Function.comp_def]

theorem left_of_gone {l next : Ledger} {way : Exit} {out : List Item}
    (gone : next.gone = l.gone ++ out.map fun item => (way, item)) :
    next.left way = l.left way ++ out := by
  rw [left, gone, List.filter_append, List.map_append]
  simp [left, List.filter_map, Function.comp_def]

theorem left_of_gone_of_ne {l next : Ledger} {way exit : Exit} {out : List Item}
    (gone : next.gone = l.gone ++ out.map fun item => (way, item)) (ne : way ≠ exit) :
    next.left exit = l.left exit := by
  rw [left, gone, List.filter_append, List.map_append]
  simp [left, List.filter_map, Function.comp_def, ne]

private theorem parted_gone (l : Ledger) :
    (l.left .dropped ++ l.left .taken ++ l.left .drained).Perm (l.gone.map Prod.snd) := by
  unfold left
  induction l.gone with
  | nil => exact List.Perm.refl _
  | cons entry rest ih =>
    obtain ⟨exit, item⟩ := entry
    cases exit with
    | dropped => exact ih.cons item
    | taken => exact (List.perm_middle.append_right _).trans (ih.cons item)
    | drained => exact List.perm_middle.trans (ih.cons item)

/-! ### The balance -/

/-- The ledger of a connection of some capacity balances. -/
structure Balances (l : Ledger) (h : Handle) (capacity : Int) : Prop where
  limit : (l.relay.peer h).outbox.capacity = capacity
  /-- What has left and what waits are what was accepted, in the same order. -/
  whole : l.gone.map Prod.snd ++ l.waiting h = l.accepted
  dropped : (l.relay.peer h).outbox.dropped = (l.left .dropped).length
  unbounded : capacity ≤ 0 → (l.relay.peer h).outbox.dropped = 0
  /-- The close marker is accepted at most once, and last. -/
  last : .close ∉ l.accepted.dropLast
  shut : .close ∈ l.accepted → (l.relay.peer h).isOpen = false
  kept : .close ∉ l.left .dropped
  /-- What was handed over and what is in hand was taken, in the same order. -/
  handed : (l.written ++ l.held.toList.map Item.transmission).Sublist
    ((l.left .taken).map Item.transmission)
  lost : (l.left .taken).length = l.written.length + l.held.toList.length + l.failures
  returned : l.returned = (l.left .drained).filterMap Item.message?

private theorem balances_opened (r : Relay) (h : Handle) (id : String) (capacity : Int) :
    (opened (r.after (.arrive h id capacity))).Balances h capacity := by
  have peer : (r.after (.arrive h id capacity)).peer h = .new id capacity :=
    Relay.peer_setPeer_self r h (.new id capacity)
  refine ⟨?_, ?_, ?_, ?_, nofun, nofun, nofun, List.Sublist.refl _, rfl, rfl⟩
  · exact congrArg (fun c => c.outbox.capacity) peer
  · exact congrArg (fun c => c.outbox.items) peer
  · exact congrArg (fun c => c.outbox.dropped) peer
  · intro _
    exact congrArg (fun c => c.outbox.dropped) peer

namespace Balances

variable {l : Ledger} {h : Handle} {capacity : Int} (balances : l.Balances h capacity)
include balances

private theorem mem_accepted {item : Item} (waits : item ∈ l.waiting h) : item ∈ l.accepted := by
  rw [← balances.whole]
  exact List.mem_append_right _ waits

/-- Whatever comes into the outbox of an open connection comes after messages only. -/
theorem entered {next : Relay} {item : Item} (isOpen : (l.relay.peer h).isOpen)
    (outbox : (next.peer h).outbox = (l.relay.peer h).outbox.push item)
    (closes : item = .close → (next.peer h).isOpen = false) :
    (l.entered h next item).Balances h capacity := by
  have unmarked : .close ∉ l.accepted := by
    intro member
    exact Bool.false_ne_true ((balances.shut member).symm.trans isOpen)
  have all : (l.entered h next item).gone.map Prod.snd =
      l.gone.map Prod.snd ++ (l.relay.peer h).outbox.ousted := map_of_gone rfl
  have left : (l.entered h next item).left .dropped =
      l.left .dropped ++ (l.relay.peer h).outbox.ousted := left_of_gone rfl
  have others (exit : Exit) (ne : .dropped ≠ exit) :
      (l.entered h next item).left exit = l.left exit := left_of_gone_of_ne rfl ne
  constructor
  case limit => exact (congrArg Outbox.capacity outbox).trans balances.limit
  case whole =>
    show _ ++ (next.peer h).outbox.items = l.accepted ++ [item]
    rw [all, outbox, List.append_assoc, Outbox.ousted_append_push, ← balances.whole,
      List.append_assoc]
    rfl
  case dropped =>
    show (next.peer h).outbox.dropped = _
    rw [outbox, Outbox.dropped_push, left, List.length_append, balances.dropped]
  case unbounded =>
    intro unbounded
    show (next.peer h).outbox.dropped = 0
    rw [outbox, Outbox.dropped_push, Outbox.ousted_of_unbounded (balances.limit ▸ unbounded)]
    exact balances.unbounded unbounded
  case last =>
    show .close ∉ (l.accepted ++ [item]).dropLast
    rwa [List.dropLast_concat]
  case shut =>
    intro member
    rcases List.mem_append.mp member with before | now
    · exact absurd before unmarked
    · exact closes (List.mem_singleton.mp now).symm
  case kept =>
    rw [left]
    intro member
    rcases List.mem_append.mp member with before | now
    · exact balances.kept before
    · exact unmarked (balances.mem_accepted (Outbox.mem_of_ousted now))
  case handed =>
    rw [others .taken nofun]
    exact balances.handed
  case lost =>
    rw [others .taken nofun]
    exact balances.lost
  case returned =>
    rw [others .drained nofun]
    exact balances.returned

theorem detached {next : Relay} (outbox : (next.peer h).outbox = (l.relay.peer h).outbox)
    (shut : (next.peer h).isOpen = false) : { l with relay := next }.Balances h capacity where
  limit := (congrArg Outbox.capacity outbox).trans balances.limit
  whole := (congrArg (fun o : Outbox => l.gone.map Prod.snd ++ o.items) outbox).trans balances.whole
  dropped := (congrArg Outbox.dropped outbox).trans balances.dropped
  unbounded unbounded := (congrArg Outbox.dropped outbox).trans (balances.unbounded unbounded)
  last := balances.last
  shut _ := shut
  kept := balances.kept
  handed := balances.handed
  lost := balances.lost
  returned := balances.returned

theorem drained {next : Relay} (outbox : (next.peer h).outbox = (l.relay.peer h).outbox.clear)
    (flag : (next.peer h).isOpen = (l.relay.peer h).isOpen) :
    (l.drained h next).Balances h capacity := by
  have all : (l.drained h next).gone.map Prod.snd = l.gone.map Prod.snd ++ l.waiting h :=
    map_of_gone rfl
  have left : (l.drained h next).left .drained =
      l.left .drained ++ l.waiting h := left_of_gone rfl
  have others (exit : Exit) (ne : .drained ≠ exit) :
      (l.drained h next).left exit = l.left exit := left_of_gone_of_ne rfl ne
  constructor
  case limit => exact (congrArg Outbox.capacity outbox).trans balances.limit
  case whole =>
    show _ ++ (next.peer h).outbox.items = l.accepted
    rw [all, outbox, ← balances.whole]
    exact List.append_nil _
  case dropped =>
    show (next.peer h).outbox.dropped = _
    rw [outbox, others .dropped nofun]
    exact balances.dropped
  case unbounded =>
    intro unbounded
    show (next.peer h).outbox.dropped = 0
    rw [outbox]
    exact balances.unbounded unbounded
  case last => exact balances.last
  case shut =>
    intro member
    exact flag.trans (balances.shut member)
  case kept =>
    rw [others .dropped nofun]
    exact balances.kept
  case handed =>
    rw [others .taken nofun]
    exact balances.handed
  case lost =>
    rw [others .taken nofun]
    exact balances.lost
  case returned =>
    rw [left, List.filterMap_append, ← balances.returned]
    rfl

theorem wrote {next : Relay} {run : Writer.Run} {taken : List Item}
    (split : taken ++ (next.peer h).outbox.items = l.waiting h)
    (limit : (next.peer h).outbox.capacity = (l.relay.peer h).outbox.capacity)
    (dropped : (next.peer h).outbox.dropped = (l.relay.peer h).outbox.dropped)
    (stays : (l.relay.peer h).isOpen = false → (next.peer h).isOpen = false)
    (part : (run.written ++ run.ending.held.toList.map Item.transmission).Sublist
      ((l.held.toList ++ taken).map Item.transmission))
    (count : l.held.toList.length + taken.length = run.written.length +
      run.ending.held.toList.length + run.ending.isFailure.toNat) :
    (l.wrote next run taken).Balances h capacity := by
  have all : (l.wrote next run taken).gone.map Prod.snd = l.gone.map Prod.snd ++ taken :=
    map_of_gone rfl
  have left : (l.wrote next run taken).left .taken =
      l.left .taken ++ taken := left_of_gone rfl
  have others (exit : Exit) (ne : .taken ≠ exit) :
      (l.wrote next run taken).left exit = l.left exit := left_of_gone_of_ne rfl ne
  constructor
  case limit => exact limit.trans balances.limit
  case whole =>
    show _ ++ (next.peer h).outbox.items = l.accepted
    rw [all, List.append_assoc, split, balances.whole]
  case dropped =>
    rw [others .dropped nofun]
    exact dropped.trans balances.dropped
  case unbounded =>
    intro unbounded
    exact dropped.trans (balances.unbounded unbounded)
  case last => exact balances.last
  case shut =>
    intro member
    exact stays (balances.shut member)
  case kept =>
    rw [others .dropped nofun]
    exact balances.kept
  case handed =>
    -- what was in hand before comes first, and then what was taken now
    show ((l.written ++ run.written) ++ run.ending.held.toList.map Item.transmission).Sublist _
    rw [List.map_append] at part
    rw [left, List.map_append, List.append_assoc]
    have later := part.append_left l.written
    rw [← List.append_assoc l.written (l.held.toList.map Item.transmission)] at later
    exact later.trans (balances.handed.append_right _)
  case lost =>
    have before := balances.lost
    show _ = (l.written ++ run.written).length + run.ending.held.toList.length +
      (l.failures + run.ending.isFailure.toNat)
    rw [left, List.length_append, List.length_append]
    omega
  case returned =>
    rw [others .drained nofun]
    exact balances.returned

/-- Whatever is done with a connection, its ledger balances. -/
theorem after (use : Use) : (l.after h use).Balances h capacity := by
  cases use with
  | send m =>
    rw [after_send]
    by_cases isOpen : (l.relay.peer h).isOpen
    · rw [if_pos isOpen]
      exact balances.entered isOpen (l.relay.outbox_accepted h (.message m)) nofun
    · rw [if_neg isOpen]
      exact balances
  | close =>
    rw [after_close]
    by_cases isOpen : (l.relay.peer h).isOpen
    · rw [if_pos isOpen]
      apply balances.entered isOpen (Relay.outbox_closed isOpen)
      intro _
      rw [Relay.peer_closed, if_pos rfl, Connection.isOpen_closed]
    · rw [if_neg isOpen]
      exact balances
  | detach =>
    rw [after_detach]
    apply balances.detached
    · rw [Relay.peer_setPeer_self]
    · rw [Relay.peer_setPeer_self]
  | drain =>
    rw [after_drain]
    apply balances.drained
    · rw [Relay.peer_setPeer_self]
    · rw [Relay.peer_setPeer_self]
  | write socket =>
    obtain ⟨taken, split, part, count⟩ := Writer.taken_run_queue socket l.held (l.waiting h)
    have peer := l.relay.peer_written_self h socket l.held
    have outbox : ((l.relay.written h socket l.held).peer h).outbox =
        (l.relay.peer h).outbox.afterRun socket l.held := by
      rw [peer, Connection.outbox_written]
    rw [after_write l h socket split]
    apply balances.wrote
    · rw [outbox]
      exact split
    · rw [outbox]
      rfl
    · rw [outbox]
      rfl
    · intro shut
      rw [peer]
      exact Connection.isOpen_written_of_shut socket l.held shut
    · exact part
    · exact count

theorem afterAll (uses : List Use) : (l.afterAll h uses).Balances h capacity := by
  induction uses generalizing l with
  | nil => exact balances
  | cons use rest ih => exact ih (balances.after use)

end Balances

/-- Whatever is done with a connection that is not open, it accepts nothing and stays so. -/
theorem sealed_after {l : Ledger} {h : Handle} (shut : (l.relay.peer h).isOpen = false)
    (use : Use) : (l.after h use).accepted = l.accepted ∧
      ((l.after h use).relay.peer h).isOpen = false := by
  have never : ¬(l.relay.peer h).isOpen := Bool.eq_false_iff.mp shut
  cases use with
  | send m =>
    rw [after_send, if_neg never]
    exact ⟨rfl, shut⟩
  | close =>
    rw [after_close, if_neg never]
    exact ⟨rfl, shut⟩
  | detach =>
    rw [after_detach]
    refine ⟨rfl, ?_⟩
    show ((l.relay.setPeer h _).peer h).isOpen = false
    rw [Relay.peer_setPeer_self]
  | drain =>
    rw [after_drain]
    refine ⟨rfl, ?_⟩
    show ((l.relay.setPeer h _).peer h).isOpen = false
    rw [Relay.peer_setPeer_self]
    exact shut
  | write socket =>
    obtain ⟨taken, split, _⟩ := Writer.taken_run_queue socket l.held (l.waiting h)
    rw [after_write l h socket split]
    refine ⟨rfl, ?_⟩
    show ((l.relay.written h socket l.held).peer h).isOpen = false
    rw [Relay.peer_written_self]
    exact Connection.isOpen_written_of_shut socket l.held shut

theorem sealed_afterAll {l : Ledger} {h : Handle} (shut : (l.relay.peer h).isOpen = false)
    (uses : List Use) : (l.afterAll h uses).accepted = l.accepted ∧
      ((l.afterAll h uses).relay.peer h).isOpen = false := by
  induction uses generalizing l with
  | nil => exact ⟨rfl, shut⟩
  | cons use rest ih =>
    obtain ⟨same, still⟩ := sealed_after shut use
    obtain ⟨later, last⟩ := ih still
    exact ⟨later.trans same, last⟩

/-- The law of an outbox of some capacity: it is bounded and holds what came last, every accepted
item has left once, in order and in one way, or waits, and a connection that is not open refuses
every message for ever. -/
structure Lawful (l : Ledger) (h : Handle) (capacity : Int) : Prop
    extends l.Balances h capacity where
  suffix : l.waiting h <:+ l.accepted
  bounded : 0 < capacity → ((l.waiting h).length : Int) ≤ capacity
  parted : (l.left .dropped ++ l.left .taken ++ l.left .drained ++ l.waiting h).Perm l.accepted
  ordered : ∀ exit, (l.left exit).Sublist l.accepted
  /-- As long as the connection is open it takes every message, and only at a full outbox does
  another item go for it. -/
  admitted : (l.relay.peer h).isOpen → ∀ m : Message, ∃ next,
    (Relay.send h m).run l.relay = .ok () next ∧ (next.peer h).outbox.items =
      (if (l.relay.peer h).outbox.isFull then (l.waiting h).tail else l.waiting h) ++ [.message m]
  refused : (l.relay.peer h).isOpen = false → ∀ m : Message,
    (Relay.send h m).run l.relay = .error (.channelClosed (l.relay.idOf h)) l.relay
  closed : (l.relay.peer h).isOpen = false → ∀ uses : List Use,
    (l.afterAll h uses).accepted = l.accepted

private theorem Balances.lawful {l : Ledger} {h : Handle} {capacity : Int}
    (balances : l.Balances h capacity) : l.Lawful h capacity where
  toBalances := balances
  suffix := ⟨_, balances.whole⟩
  bounded positive := by
    have bounded := (l.relay.peer h).outbox.bounded
    rw [balances.limit] at bounded
    exact bounded positive
  parted := balances.whole ▸ l.parted_gone.append_right (l.waiting h)
  ordered exit := by
    have among : (l.left exit).Sublist (l.gone.map Prod.snd) := List.filter_sublist.map Prod.snd
    rw [← balances.whole]
    exact among.trans (List.sublist_append_left _ _)
  admitted isOpen m := by
    refine ⟨l.relay.accepted h (.message m), (l.relay.run_send h m).trans (if_pos isOpen), ?_⟩
    rw [Relay.outbox_accepted]
    rfl
  refused shut m := (l.relay.run_send h m).trans (if_neg (Bool.eq_false_iff.mp shut))
  closed shut uses := (sealed_afterAll shut uses).1

/-- Whatever is done with a connection after it has come, the law of outboxes holds for it. -/
theorem lawful_afterAll (r : Relay) (h : Handle) (id : String) (capacity : Int)
    (uses : List Use) :
    ((opened (r.after (.arrive h id capacity))).afterAll h uses).Lawful h capacity :=
  ((balances_opened r h id capacity).afterAll uses).lawful

end Ledger

end GameRelay
