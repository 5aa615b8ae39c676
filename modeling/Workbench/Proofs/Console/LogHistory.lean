import Mathlib.Data.List.DropRight
import Mathlib.Data.List.Induction
import Workbench.Proofs.Console.BoundedLog

/-!
# A bounded log through a history

The items that count are those that a history appends after it last cleared the log (`recentItems`).
Each change keeps that the log holds the newest of them and has dropped the others
(`HoldsNewest.apply`), and so does every history (`holdsNewest_run`).

`newest_items_kept` states it for a log that was made with room for at least one item, in terms of
the list of all these items alone (`KeepsNewest`). It also says how the log comes to this, item by
item: a log that is full drops its oldest item for the next one, and a log with room drops none.
-/

namespace Workbench.BoundedLog

variable {α : Type} {log : BoundedLog α} {xs : List α}

/-- The items that the change appends. -/
def Change.items : Change α → List α
  | .push x => [x]
  | .extend xs => xs
  | .clear => []

/-- The change forgets what came before it. -/
def Change.clears : Change α → Bool
  | .clear => true
  | _ => false

/-- The items that a history appends after it last cleared the log, in order. -/
def recentItems (history : List (Change α)) : List α :=
  (history.rtakeWhile fun c => !c.clears).flatMap Change.items

theorem recentItems_concat (history : List (Change α)) (c : Change α) :
    recentItems (history ++ [c]) =
      if c.clears then [] else recentItems history ++ c.items := by
  rw [recentItems, List.rtakeWhile_concat]
  cases c.clears <;> simp [recentItems]

theorem run_concat (log : BoundedLog α) (history : List (Change α)) (c : Change α) :
    log.run (history ++ [c]) = (log.run history).apply c := by
  rw [run, List.foldl_concat, run]

/-! ## What the changes keep -/

theorem capacity_extend (log : BoundedLog α) (xs : List α) :
    (log.extend xs).capacity = log.capacity := by
  induction xs generalizing log with
  | nil => rfl
  | cons x xs ih => exact ih (log.push x)

theorem capacity_apply (log : BoundedLog α) (c : Change α) :
    (log.apply c).capacity = log.capacity := by
  cases c with
  | push x => exact log.capacity_push x
  | extend xs => exact log.capacity_extend xs
  | clear => exact log.capacity_clear

theorem capacity_run (log : BoundedLog α) (history : List (Change α)) :
    (log.run history).capacity = log.capacity := by
  induction history using List.reverseRecOn with
  | nil => rfl
  | append_singleton history c ih => rw [run_concat, capacity_apply, ih]

/-- Also more items than the log has room for are appended one by one. -/
theorem HoldsNewest.extend (h : log.HoldsNewest xs) (ys : List α) :
    (log.extend ys).HoldsNewest (xs ++ ys) := by
  induction ys generalizing log xs with
  | nil =>
    rw [List.append_nil]
    exact h
  | cons y ys ih =>
    have hy : ((log.push y).extend ys).HoldsNewest ((xs ++ [y]) ++ ys) := ih (h.push y)
    rw [List.append_assoc] at hy
    exact hy

theorem HoldsNewest.apply (h : log.HoldsNewest xs) (c : Change α) :
    (log.apply c).HoldsNewest (if c.clears then [] else xs ++ c.items) := by
  cases c with
  | push x => exact h.push x
  | extend ys => exact h.extend ys
  | clear => exact holdsNewest_empty log.capacity

theorem holdsNewest_run (capacity : Nat) (history : List (Change α)) :
    ((empty capacity).run history).HoldsNewest (recentItems history) := by
  induction history using List.reverseRecOn with
  | nil => exact holdsNewest_empty capacity
  | append_singleton history c ih =>
    rw [run_concat, recentItems_concat]
    exact ih.apply c

/-! ## One more item -/

/-- A log with room for one more item appends it and drops nothing. -/
theorem push_of_room (x : α) (h : log.size < log.capacity) :
    (log.push x).items = log.items ++ [x] ∧ (log.push x).dropped = log.dropped := by
  rw [size] at h
  constructor
  · have hroom : (log.items ++ [x]).length - log.capacity = 0 := by
      rw [List.length_append, List.length_singleton]
      omega
    rw [items_push, newest, hroom, List.drop_zero]
  · show log.dropped + (log.items.length + 1 - log.capacity) = log.dropped
    omega

/-- A full log appends an item in place of its oldest one. -/
theorem push_of_full (x : α) (h : log.size = log.capacity) (hc : 0 < log.capacity) :
    (log.push x).items = log.items.tail ++ [x] ∧ (log.push x).dropped = log.dropped + 1 := by
  rw [size] at h
  constructor
  · have hfull : (log.items ++ [x]).length - log.capacity = 1 := by
      rw [List.length_append, List.length_singleton]
      omega
    have hne : log.items ≠ [] := List.ne_nil_of_length_pos (by omega)
    rw [items_push, newest, hfull, List.drop_one, List.tail_append_of_ne_nil hne]
  · show log.dropped + (log.items.length + 1 - log.capacity) = log.dropped + 1
    omega

/-! ## The newest items -/

/-- Of the items `xs` that came, the log holds the last ones, as many as it has room for. -/
structure KeepsNewest (log : BoundedLog α) (capacity : Nat) (xs : List α) : Prop where
  items_eq : log.items = xs.rtake (min capacity xs.length)
  newestFirst_eq : log.newestFirst = (xs.rtake (min capacity xs.length)).reverse
  size_eq : log.size = min capacity xs.length
  size_le : log.size ≤ capacity
  isEmpty_iff : log.isEmpty = true ↔ xs = []
  dropped_eq : log.dropped = xs.length - log.size
  capacity_eq : log.capacity = capacity
  /-- While there is room nothing is dropped. -/
  push_of_room : log.size < capacity → ∀ x, (log.push x).items = log.items ++ [x] ∧
    (log.push x).dropped = log.dropped
  /-- A full log drops one item for one item. -/
  push_of_full : log.size = capacity → ∀ x, (log.push x).items = log.items.tail ++ [x] ∧
    (log.push x).dropped = log.dropped + 1

theorem HoldsNewest.keepsNewest (h : log.HoldsNewest xs) (hc : 0 < log.capacity) :
    log.KeepsNewest log.capacity xs := by
  have hitems : log.items = xs.rtake (min log.capacity xs.length) := by
    rw [h.items_eq, ← newest_min, Nat.min_comm]
    rfl
  have hsize : log.size = min log.capacity xs.length := by
    rw [size, h.items_eq, length_newest]
  have hdropped := h.dropped_eq
  refine ⟨hitems, ?_, hsize, log.length_le, ?_, ?_, rfl, fun hr x => log.push_of_room x hr,
    fun hf x => log.push_of_full x hf hc⟩
  · rw [newestFirst, hitems]
  · rw [isEmpty, List.isEmpty_iff_length_eq_zero, ← List.length_eq_zero_iff]
    rw [size] at hsize
    omega
  · omega

/-- A log that is made with room for at least one item holds, after any history, the newest of the
items that came since it was last cleared, and counts the others. -/
theorem newest_items_kept {capacity : Nat} (hc : 0 < capacity) (history : List (Change α)) :
    ∃ log : BoundedLog α, create capacity = .ok log ∧
      (log.run history).KeepsNewest capacity (recentItems history) := by
  refine ⟨empty capacity, if_neg (Nat.ne_of_gt hc), ?_⟩
  have hcap : ((empty capacity : BoundedLog α).run history).capacity = capacity :=
    capacity_run (empty capacity) history
  have hkeeps := (holdsNewest_run capacity history).keepsNewest (by rwa [hcap])
  rw [hcap] at hkeeps
  exact hkeeps

/-- A log with room for two items overflows, is cleared, and overflows again. -/
def overflows : List (Change Nat) := [.extend [1, 2, 3], .clear, .push 4, .extend [5, 6, 7]]

theorem newest_items_kept_overflows :
    0 < 2 ∧ ∃ log : BoundedLog Nat, create 2 = .ok log ∧ (log.run overflows).items = [6, 7] ∧
      (log.run overflows).newestFirst = [7, 6] ∧ (log.run overflows).dropped = 2 := by
  obtain ⟨log, hlog, hkeeps⟩ := newest_items_kept Nat.two_pos overflows
  have hrecent : recentItems overflows = [4, 5, 6, 7] := by decide
  rw [hrecent] at hkeeps
  refine ⟨Nat.two_pos, log, hlog, hkeeps.items_eq, hkeeps.newestFirst_eq, ?_⟩
  rw [hkeeps.dropped_eq, hkeeps.size_eq]
  rfl

end Workbench.BoundedLog
