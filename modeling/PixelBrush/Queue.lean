namespace PixelBrush

/-!
# Queues

Items leave a queue in the order in which they were added.  The items at the
front are kept in this order and those at the back in the opposite one, so that
both ends are at hand; the back is turned around when the front is used up.
-/

/-- Items that wait for their turn. -/
structure Queue (Item : Type) where
  front : List Item
  back : List Item
  deriving Repr, DecidableEq

namespace Queue

variable {Item : Type}

/-- The queue in which nothing waits. -/
def empty : Queue Item :=
  ⟨[], []⟩

/-- The items, the one that leaves first at the head. -/
def toList (queue : Queue Item) : List Item :=
  queue.front ++ queue.back.reverse

/-- Adds an item at the end. -/
def push (queue : Queue Item) (item : Item) : Queue Item :=
  { queue with back := item :: queue.back }

/-- The item that leaves first, and the queue without it. -/
def pop? (queue : Queue Item) : Option (Item × Queue Item) :=
  match queue.front with
  | item :: front => some (item, { queue with front })
  | [] =>
      match queue.back.reverse with
      | item :: front => some (item, ⟨front, []⟩)
      | [] => none

/-- Nothing waits in the empty queue. -/
@[simp]
theorem toList_empty : (empty : Queue Item).toList = [] :=
  rfl

/-- An added item waits behind all others. -/
@[simp]
theorem toList_push (queue : Queue Item) (item : Item) :
    (queue.push item).toList = queue.toList ++ [item] := by
  simp [toList, push]

/-- A queue gives away its first item, if there is one. -/
theorem pop?_spec (queue : Queue Item) :
    queue.toList =
      match queue.pop? with
      | some (item, rest) => item :: rest.toList
      | none => [] := by
  obtain ⟨front, back⟩ := queue
  unfold pop? toList
  cases front with
  | cons item front =>
      rfl
  | nil =>
      dsimp only
      cases back.reverse <;> simp

/-- What is left when the first item has left. -/
theorem toList_of_pop?
    {queue rest : Queue Item}
    {item : Item}
    (popped : queue.pop? = some (item, rest)) :
    queue.toList = item :: rest.toList := by
  rw [pop?_spec, popped]

/-- A queue that gives nothing away is empty. -/
theorem toList_of_pop?_none
    {queue : Queue Item}
    (popped : queue.pop? = none) :
    queue.toList = [] := by
  rw [pop?_spec, popped]

end Queue

end PixelBrush
