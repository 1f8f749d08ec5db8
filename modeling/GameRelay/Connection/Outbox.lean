import GameRelay.Message.Message

/-!
# Outboxes

The messages that wait for one client, in order, and the marker that asks its writer to close the
socket. A positive capacity bounds an outbox: what comes to a full one pushes the oldest item out,
which is counted. With any other capacity an outbox is unbounded. Putting and taking can fail, on
a full and on an empty outbox; `enqueue` does both so that neither failure arises.
-/

set_option autoImplicit false
set_option relaxedAutoImplicit false

namespace GameRelay

inductive Item
  | message (m : Message)
  | close
  deriving DecidableEq

/-- The message of an item; the close marker has none. -/
def Item.message? : Item → Option Message
  | .message m => some m
  | .close => none

inductive OutboxFault
  | full
  | empty
  deriving DecidableEq

/-- Items in the order in which they came, and how many were pushed out so far. -/
structure Outbox where
  items : List Item
  capacity : Int
  dropped : Nat
  bounded : 0 < capacity → (items.length : Int) ≤ capacity
  deriving DecidableEq

namespace Outbox

def empty (capacity : Int) : Outbox where
  items := []
  capacity := capacity
  dropped := 0
  bounded h := by simpa using Int.le_of_lt h

def isFull (o : Outbox) : Bool := 0 < o.capacity && o.capacity ≤ o.items.length

def size (o : Outbox) : Nat := o.items.length

def put (o : Outbox) (item : Item) : Except OutboxFault Outbox :=
  if h : o.isFull then .error .full
  else .ok {
    o with
    items := o.items ++ [item]
    bounded := by
      intro positive
      simp only [isFull, Bool.and_eq_true, decide_eq_true_eq, not_and, Int.not_le] at h
      have := h positive
      simp only [List.length_append, List.length_singleton]
      omega }

def take (o : Outbox) : Except OutboxFault (Item × Outbox) :=
  match h : o.items with
  | [] => .error .empty
  | item :: rest => .ok (item, {
      o with
      items := rest
      bounded := by
        intro positive
        have := o.bounded positive
        simp only [h, List.length_cons] at this
        omega })

/-- An outbox from which nothing is to be taken any more. -/
def clear (o : Outbox) : Outbox :=
  { o with items := [], bounded := fun h => by simpa using Int.le_of_lt h }

/-- Puts an item at the end; when there is no room the oldest one is taken out first. -/
def enqueue (o : Outbox) (item : Item) : Except OutboxFault Outbox :=
  if o.isFull then
    match o.take with
    | .ok (_, rest) => { rest with dropped := rest.dropped + 1 }.put item
    | .error fault => .error fault
  else o.put item

def itemsAfter (o : Outbox) (item : Item) : List Item :=
  (if o.isFull then o.items.tail else o.items) ++ [item]

theorem length_itemsAfter (o : Outbox) (item : Item) (positive : 0 < o.capacity) :
    ((o.itemsAfter item).length : Int) ≤ o.capacity := by
  have bound := o.bounded positive
  by_cases full : o.isFull
  · have reached := full
    simp only [isFull, Bool.and_eq_true, decide_eq_true_eq] at reached
    simp only [itemsAfter, full, if_true, List.length_append, List.length_tail,
      List.length_singleton]
    omega
  · have below := full
    simp only [isFull, Bool.and_eq_true, decide_eq_true_eq, not_and, Int.not_le] at below
    have := below positive
    simp only [itemsAfter, full, List.length_append, List.length_singleton]
    simp only [Bool.false_eq_true, if_false]
    omega

def push (o : Outbox) (item : Item) : Outbox where
  items := o.itemsAfter item
  capacity := o.capacity
  dropped := if o.isFull then o.dropped + 1 else o.dropped
  bounded := o.length_itemsAfter item

theorem put_eq_ok (o : Outbox) (item : Item) (h : o.isFull = false) :
    o.put item = .ok (o.push item) := by
  simp [put, push, itemsAfter, h]

theorem enqueue_eq_ok (o : Outbox) (item : Item) : o.enqueue item = .ok (o.push item) := by
  obtain ⟨items, capacity, dropped, bounded⟩ := o
  cases full : isFull ⟨items, capacity, dropped, bounded⟩ with
  | false => simp [enqueue, full, put_eq_ok]
  | true =>
    have reached := full
    simp only [isFull, Bool.and_eq_true, decide_eq_true_eq] at reached
    cases items with
    | nil =>
      simp only [List.length_nil] at reached
      omega
    | cons first rest =>
      have room (n : Nat) (b) : isFull ⟨rest, capacity, n, b⟩ = false := by
        have := bounded reached.1
        simp only [List.length_cons] at this
        simp only [isFull, Bool.and_eq_false_iff, decide_eq_false_iff_not]
        omega
      simp [enqueue, full, take, put, room, push, itemsAfter]

end Outbox

end GameRelay
