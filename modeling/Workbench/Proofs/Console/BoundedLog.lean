import Workbench.Console.BoundedLog

/-!
# What a bounded log holds

A log holds the newest of the items that came since it was last empty, as many as it has room for,
and the number of the others (`HoldsNewest`). Each change of a log keeps this.
-/

namespace Workbench.BoundedLog

variable {α : Type} {log : BoundedLog α} {xs : List α}

/-- Of the newest items the newest are the newest of all, also when others follow. -/
theorem newest_newest_append (n : Nat) (xs ys : List α) :
    newest n (newest n xs ++ ys) = newest n (xs ++ ys) := by
  have hd : newest n xs ++ ys = (xs ++ ys).drop (xs.length - n) :=
    (List.drop_append_of_le_length (Nat.sub_le _ _)).symm
  rw [hd, newest, newest, List.drop_drop, List.length_drop, List.length_append]
  congr 1
  omega

theorem length_newest (n : Nat) (xs : List α) : (newest n xs).length = min n xs.length := by
  rw [newest, List.length_drop]
  omega

theorem newest_min (n : Nat) (xs : List α) : newest (min xs.length n) xs = newest n xs := by
  rw [newest, newest]
  congr 1
  omega

theorem newest_map {β : Type} (f : α → β) (n : Nat) (xs : List α) :
    newest n (xs.map f) = (newest n xs).map f := by
  rw [newest, newest, List.length_map, List.map_drop]

/-- Of the items `xs`, the log holds the newest and has dropped the others. -/
structure HoldsNewest (log : BoundedLog α) (xs : List α) : Prop where
  items_eq : log.items = newest log.capacity xs
  dropped_eq : log.dropped = xs.length - log.capacity

theorem holdsNewest_empty (capacity : Nat) : (empty capacity : BoundedLog α).HoldsNewest [] where
  items_eq := List.drop_nil.symm
  dropped_eq := (Nat.zero_sub capacity).symm

theorem HoldsNewest.push (h : log.HoldsNewest xs) (x : α) :
    (log.push x).HoldsNewest (xs ++ [x]) where
  items_eq := by rw [items_push, h.items_eq, newest_newest_append, capacity_push]
  dropped_eq := by
    have hl : log.items.length = min log.capacity xs.length := by rw [h.items_eq, length_newest]
    have hd := h.dropped_eq
    rw [BoundedLog.push, List.length_append, List.length_singleton]
    show log.dropped + (log.items.length + 1 - log.capacity) = xs.length + 1 - log.capacity
    omega

end Workbench.BoundedLog
