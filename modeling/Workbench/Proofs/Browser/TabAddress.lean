import Mathlib.Data.List.Nodup
import Mathlib.Data.List.Perm.Basic
import Workbench.Browser.Basic

/-!
# The addresses of tabs

An address is handed out when a page is shown in a new tab, and has to be given back once. If a window
opened, a timer does it; otherwise it is done at once. `Tabs.Accounts` says so of any moment, for the
addresses that were handed out so far: those that were given back and those that wait for a timer are
together those that were handed out, each as often, and only those of windows that opened wait.

Showing a page keeps this (`Accounts.deliver`), whichever step fails, and so does each timer, in
whatever order they fire (`Accounts.fire`). Letting all of them fire is to fire the first one until
none is left (`settle_eq_foldl_fire`). Where the browser hands out no address twice, each is given back
once or waits for one timer (`Accounts.count_add_count`).
-/

namespace Workbench.Browser

/-- The address that the call gives back. -/
def Call.revoked? : Call → Option String
  | .revoke address => some address
  | _ => none

/-- The address at which the call opens a window. -/
def Call.window? : Call → Option String
  | .openWindow address _ => some address
  | _ => none

namespace Behaviour

/-- The address that is handed out, if it comes to that, with what happens to its window. -/
def handedOut? (b : Behaviour) : Option (String × Opening) :=
  if b.hasWindow && b.makesBlob then b.address?.map (·, b.opening) else none

/-- What happens when a window is opened at a new address, if it comes to that. -/
def opening? (b : Behaviour) : Option Opening := b.handedOut?.map Prod.snd

/-- The steps of showing a page, in order: whether they succeed, and the error if they do not. -/
def steps (b : Behaviour) : List (Bool × TabError) :=
  [(b.hasWindow, .noBrowser), (b.makesBlob, .noBlob), (b.address?.isSome, .noAddress),
    (b.opening == .opened, .blocked)]

/-- The error of the first step that fails. -/
def failure? (b : Behaviour) : Option TabError := (b.steps.find? fun step => !step.1).map Prod.snd

theorem failure?_eq_none_iff (b : Behaviour) :
    b.failure? = none ↔ b.opening? = some .opened := by
  obtain ⟨hasWindow, makesBlob, address?, opening⟩ := b
  rw [failure?, Option.map_eq_none_iff, List.find?_eq_none, opening?, handedOut?]
  cases address? <;> simp [steps, and_assoc]

end Behaviour

namespace Tabs

variable {t : Tabs} {b : Behaviour} {given : List (String × Opening)} {a : String} {o : Opening}

/-- The addresses that were given back, in order. -/
def revoked (t : Tabs) : List String := t.calls.filterMap Call.revoked?

/-- The addresses at which windows were opened, in order. -/
def windows (t : Tabs) : List String := t.calls.filterMap Call.window?

/-- The addresses that wait for a timer. -/
def waiting (t : Tabs) : List String := t.pending.map Timer.address

/-- One of the pending timers fires. -/
def fire (t : Tabs) (k : Nat) : Tabs :=
  match t.pending[k]? with
  | none => t
  | some p =>
    { t with
      calls := t.calls ++ [.timer p.milliseconds, .revoke p.address]
      pending := t.pending.eraseIdx k }

theorem count_revoke (t : Tabs) (a : String) : t.calls.count (.revoke a) = t.revoked.count a := by
  rw [revoked, List.count_filterMap, List.count]
  refine List.countP_congr fun c _ => ?_
  cases c <;> simp [Call.revoked?]

/-! ## Showing a page -/

/-- Without a new address nothing changes but the calls. -/
theorem exists_deliver_eq (t : Tabs) (h : b.handedOut? = none) (page : String) :
    ∃ calls, (t.deliver b page).1 = { t with calls := t.calls ++ calls } ∧
      calls.filterMap Call.revoked? = [] ∧ calls.filterMap Call.window? = [] := by
  obtain ⟨hasWindow, makesBlob, address?, opening⟩ := b
  cases hasWindow with
  | false => exact ⟨[], by simp [deliver], rfl, rfl⟩
  | true =>
    cases makesBlob with
    | false => exact ⟨[.makeBlob "text/html" page], rfl, rfl, rfl⟩
    | true =>
      cases address? with
      | none =>
        exact ⟨[.makeBlob "text/html" page, .makeAddress], by simp [deliver, record], rfl, rfl⟩
      | some address => cases h

/-- A new address waits for a timer if a window opened at it, and otherwise it is given back at
once. -/
theorem deliver_eq (t : Tabs) (h : b.handedOut? = some (a, o)) (page : String) :
    (t.deliver b page).1 =
      { calls := t.calls ++ ([.makeBlob "text/html" page, .makeAddress, .openWindow a "_blank"] ++
          if o = .opened then [] else [.revoke a])
        pending := t.pending ++
          if o = .opened then [⟨Settings.tabAddressLifetime, a⟩] else [] } := by
  obtain ⟨hasWindow, makesBlob, address?, opening⟩ := b
  obtain ⟨⟨rfl, rfl⟩, rfl, rfl⟩ :
      (hasWindow = true ∧ makesBlob = true) ∧ address? = some a ∧ opening = o := by
    simpa [Behaviour.handedOut?] using h
  cases opening <;> simp [deliver, record]

theorem revoked_deliver (t : Tabs) (h : b.handedOut? = some (a, o)) (page : String) :
    (t.deliver b page).1.revoked = t.revoked ++ if o = .opened then [] else [a] := by
  rw [t.deliver_eq h page, revoked, List.filterMap_append, List.filterMap_append]
  split <;> rfl

theorem windows_deliver (t : Tabs) (h : b.handedOut? = some (a, o)) (page : String) :
    (t.deliver b page).1.windows = t.windows ++ [a] := by
  rw [t.deliver_eq h page, windows, List.filterMap_append, List.filterMap_append]
  split <;> rfl

theorem pending_deliver (t : Tabs) (h : b.handedOut? = some (a, o)) (page : String) :
    (t.deliver b page).1.pending = t.pending ++
      if o = .opened then [⟨Settings.tabAddressLifetime, a⟩] else [] := by
  rw [t.deliver_eq h page]

/-- The answer is the error of the first step that failed, if one did. -/
theorem answer_deliver (t : Tabs) (b : Behaviour) (page : String) :
    (t.deliver b page).2 = b.failure?.elim (.ok ()) .error := by
  obtain ⟨hasWindow, makesBlob, address?, opening⟩ := b
  cases hasWindow with
  | false => rfl
  | true =>
    cases makesBlob with
    | false => rfl
    | true =>
      cases address? with
      | none => rfl
      | some address => cases opening <;> rfl

/-- What showing a page gives back is its own address, and no window opened at it. -/
theorem exists_of_count_lt {page : String}
    (h : t.calls.count (.revoke a) < (t.deliver b page).1.calls.count (.revoke a)) :
    ∃ o, b.handedOut? = some (a, o) ∧ o ≠ .opened := by
  rw [count_revoke, count_revoke] at h
  cases hb : b.handedOut? with
  | none =>
    obtain ⟨calls, ht, hrevoked, -⟩ := t.exists_deliver_eq hb page
    have hsame : (t.deliver b page).1.revoked = t.revoked := by
      rw [ht, revoked, List.filterMap_append, hrevoked, List.append_nil, revoked]
    rw [hsame] at h
    exact absurd h (Nat.lt_irrefl _)
  | some p =>
    obtain ⟨a', o⟩ := p
    rw [t.revoked_deliver hb page, List.count_append] at h
    have hmem : a ∈ if o = .opened then [] else [a'] := by
      apply List.count_pos_iff.mp
      omega
    split at hmem
    · exact absurd hmem List.not_mem_nil
    · rename_i ho
      exact ⟨o, by rw [List.mem_singleton.mp hmem], ho⟩

/-- What a timer gives back is the address that waited for it. -/
theorem getElem?_waiting_of_count_lt {k : Nat}
    (h : t.calls.count (.revoke a) < (t.fire k).calls.count (.revoke a)) :
    t.waiting[k]? = some a := by
  unfold fire at h
  rw [waiting, List.getElem?_map]
  cases hk : t.pending[k]? with
  | none =>
    rw [hk] at h
    exact absurd h (Nat.lt_irrefl _)
  | some p =>
    rw [hk] at h
    have hmem : Call.revoke a ∈ [.timer p.milliseconds, .revoke p.address] := by
      apply List.count_pos_iff.mp
      rw [List.count_append] at h
      omega
    have ha : a = p.address := by simpa using hmem
    rw [ha]
    rfl

/-! ## The account -/

/-- The account of the addresses that were handed out, each with what happened to its window. -/
structure Accounts (t : Tabs) (given : List (String × Opening)) : Prop where
  /-- Each window was opened at an address of its own. -/
  windows_eq : t.windows = given.map Prod.fst
  /-- Each address was given back or waits for a timer, and no other. -/
  perm : (t.revoked ++ t.waiting).Perm (given.map Prod.fst)
  opened_of_mem : ∀ p ∈ t.pending,
    p.milliseconds = Settings.tabAddressLifetime ∧ (p.address, .opened) ∈ given

theorem accounts_start : start.Accounts [] :=
  ⟨rfl, List.Perm.refl [], fun _ hp => absurd hp List.not_mem_nil⟩

/-- An address that is handed out once belongs to one window. -/
theorem eq_of_mem_given {o' : Opening} (hn : (given.map Prod.fst).Nodup) (h : (a, o) ∈ given)
    (h' : (a, o') ∈ given) : o = o' :=
  (Prod.mk.inj (List.inj_on_of_nodup_map hn h h' rfl)).2

namespace Accounts

/-- Each address is given back once or waits for one timer. -/
theorem count_add_count (h : t.Accounts given) (hn : (given.map Prod.fst).Nodup) (a : String) :
    t.calls.count (.revoke a) + t.waiting.count a = if a ∈ given.map Prod.fst then 1 else 0 := by
  rw [count_revoke, ← List.count_append, h.perm.count_eq, hn.count]

/-- What waits for a timer was not given back yet. -/
theorem count_revoke_of_mem_waiting (h : t.Accounts given) (hn : (given.map Prod.fst).Nodup)
    (ha : a ∈ t.waiting) : t.calls.count (.revoke a) = 0 := by
  have hpos : 0 < t.waiting.count a := List.count_pos_iff.mpr ha
  have hcount := h.count_add_count hn a
  split at hcount <;> omega

/-- The address of a window that did not open was given back. -/
theorem count_revoke_of_ne (h : t.Accounts given) (hn : (given.map Prod.fst).Nodup)
    (ha : (a, o) ∈ given) (ho : o ≠ .opened) : t.calls.count (.revoke a) = 1 := by
  have hwaiting : a ∉ t.waiting := by
    intro hw
    obtain ⟨p, hp, rfl⟩ := List.mem_map.mp hw
    exact ho (eq_of_mem_given hn ha (h.opened_of_mem p hp).2)
  have hcount := h.count_add_count hn a
  rw [if_pos (List.mem_map_of_mem ha), List.count_eq_zero_of_not_mem hwaiting] at hcount
  exact hcount

theorem deliver (h : t.Accounts given) (b : Behaviour) (page : String) :
    (t.deliver b page).1.Accounts (given ++ b.handedOut?.toList) := by
  cases hb : b.handedOut? with
  | none =>
    obtain ⟨calls, ht, hrevoked, hwindows⟩ := t.exists_deliver_eq hb page
    rw [ht, Option.toList_none, List.append_nil]
    refine ⟨?_, ?_, h.opened_of_mem⟩
    · rw [windows, List.filterMap_append, hwindows, List.append_nil]
      exact h.windows_eq
    · rw [revoked, List.filterMap_append, hrevoked, List.append_nil]
      exact h.perm
  | some p =>
    obtain ⟨a, o⟩ := p
    rw [Option.toList_some]
    refine ⟨?_, ?_, fun p hp => ?_⟩
    · rw [t.windows_deliver hb page, h.windows_eq, List.map_append, List.map_singleton]
    · rw [t.revoked_deliver hb page, waiting, t.pending_deliver hb page, List.map_append,
        List.map_append, List.map_singleton]
      split
      · rw [List.append_nil, ← List.append_assoc]
        exact h.perm.append_right _
      · rw [List.map_nil, List.append_nil, List.append_assoc]
        refine (List.perm_append_comm.append_left _).trans ?_
        rw [← List.append_assoc]
        exact h.perm.append_right _
    · rw [t.pending_deliver hb page] at hp
      rcases List.mem_append.mp hp with hp | hp
      · obtain ⟨hlifetime, hmem⟩ := h.opened_of_mem p hp
        exact ⟨hlifetime, List.mem_append_left _ hmem⟩
      · split at hp
        · rename_i ho
          rw [List.mem_singleton.mp hp, ho]
          exact ⟨rfl, List.mem_append_right _ (List.mem_singleton.mpr rfl)⟩
        · exact absurd hp List.not_mem_nil

theorem fire (h : t.Accounts given) (k : Nat) : (t.fire k).Accounts given := by
  unfold Tabs.fire
  cases hk : t.pending[k]? with
  | none => exact h
  | some p =>
    obtain ⟨hlt, hp⟩ := List.getElem?_eq_some_iff.mp hk
    have hwaiting : ([p.address] ++ (t.pending.eraseIdx k).map Timer.address).Perm t.waiting := by
      have hperm := (List.getElem_cons_eraseIdx_perm hlt).map Timer.address
      rw [hp] at hperm
      exact hperm
    refine ⟨?_, ?_, fun q hq => h.opened_of_mem q ?_⟩
    · rw [windows, List.filterMap_append]
      exact (List.append_nil _).trans h.windows_eq
    · rw [revoked, List.filterMap_append, List.append_assoc]
      exact (hwaiting.append_left _).trans h.perm
    · exact List.mem_of_mem_eraseIdx hq

end Accounts

/-! ## Letting all timers fire -/

theorem settle_eq_foldl_fire (t : Tabs) :
    t.settle = (List.replicate t.pending.length 0).foldl fire t := by
  obtain ⟨calls, pending⟩ := t
  induction pending generalizing calls with
  | nil => simp [settle]
  | cons p pending ih =>
    have hfire : fire ⟨calls, p :: pending⟩ 0 =
        ⟨calls ++ [.timer p.milliseconds, .revoke p.address], pending⟩ := rfl
    rw [List.length_cons, List.replicate_succ, List.foldl_cons, hfire, ← ih]
    simp [settle]

end Tabs
end Workbench.Browser
