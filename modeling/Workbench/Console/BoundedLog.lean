/-!
# Bounded logs

A log that keeps the newest items up to its capacity and counts the items that it dropped. Its view
is `items`, from the oldest to the newest.
-/

namespace Workbench

/-- A log that never holds more than `capacity` items. -/
structure BoundedLog (α : Type) where
  capacity : Nat
  items : List α
  dropped : Nat
  length_le : items.length ≤ capacity

namespace BoundedLog

/-- Why a log cannot be made. -/
inductive Fault where
  | noCapacity

/-- The text of the fault. -/
def Fault.message : Fault → String
  | noCapacity => "RingBuffer capacity must be greater than 0"

variable {α : Type}

/-- The log without items. -/
def empty (capacity : Nat) : BoundedLog α := ⟨capacity, [], 0, Nat.zero_le _⟩

/-- A log without items, provided that it has room for some. -/
def create (capacity : Nat) : Except Fault (BoundedLog α) :=
  if capacity = 0 then .error .noCapacity else .ok (empty capacity)

/-- The last `n` items of a list. -/
def newest (n : Nat) (xs : List α) : List α := xs.drop (xs.length - n)

theorem length_newest_le (n : Nat) (xs : List α) : (newest n xs).length ≤ n := by
  simp only [newest, List.length_drop]
  omega

/-- Appends an item; the oldest one makes room when the log is full. -/
def push (log : BoundedLog α) (x : α) : BoundedLog α where
  capacity := log.capacity
  items := newest log.capacity (log.items ++ [x])
  dropped := log.dropped + (log.items.length + 1 - log.capacity)
  length_le := length_newest_le _ _

/-- Appends items one after the other. -/
def extend (log : BoundedLog α) (xs : List α) : BoundedLog α := xs.foldl push log

/-- Forgets the items and how many were dropped. -/
def clear (log : BoundedLog α) : BoundedLog α := empty log.capacity

/-- The number of items. -/
def size (log : BoundedLog α) : Nat := log.items.length

/-- There are no items. -/
def isEmpty (log : BoundedLog α) : Bool := log.items.isEmpty

/-- The items from the newest to the oldest. -/
def newestFirst (log : BoundedLog α) : List α := log.items.reverse

@[simp] theorem items_empty (n : Nat) : (empty n : BoundedLog α).items = [] := rfl

@[simp] theorem items_push (log : BoundedLog α) (x : α) :
    (log.push x).items = newest log.capacity (log.items ++ [x]) := rfl

@[simp] theorem items_clear (log : BoundedLog α) : log.clear.items = [] := rfl

@[simp] theorem capacity_push (log : BoundedLog α) (x : α) :
    (log.push x).capacity = log.capacity := rfl

@[simp] theorem capacity_clear (log : BoundedLog α) : log.clear.capacity = log.capacity := rfl

/-- A change of a log. -/
inductive Change (α : Type) where
  | push (x : α)
  | extend (xs : List α)
  | clear

/-- Applies a change. -/
def apply (log : BoundedLog α) : Change α → BoundedLog α
  | .push x => log.push x
  | .extend xs => log.extend xs
  | .clear => log.clear

/-- Applies a history of changes. -/
def run (log : BoundedLog α) (history : List (Change α)) : BoundedLog α :=
  history.foldl apply log

end BoundedLog
end Workbench
