import Mathlib.Data.List.Induction
import Workbench.Proofs.Browser.TabAddress
import Workbench.Studio.Basic

/-!
# The addresses of tabs through a history

Between the actions of the user the timers fire, each on its own, so that a history here is a list of
moments. Of these, only showing a page in a new tab and the timers touch the addresses, and each moment
keeps the account of them (`accounts_live`).

`addresses_given_back` draws the conclusion for a browser that hands out no address twice
(`HandsOutFresh`). An address whose window opened is given back by its timer and by nothing else, an
address whose window did not open is given back at once, and when all timers have fired each address has
been given back once. The rest of the workbench takes no part in this, but for the notice, which reports
the first step that failed.
-/

namespace Workbench.Studio

open Browser

/-- An action, or one of the pending timers fires. -/
inductive Moment where
  | action (a : Action)
  | timer (k : Nat)

/-- What a moment makes of the workbench and of its tabs. -/
def pass (s : Studio × Tabs) : Moment → Studio × Tabs
  | .action a => act s a
  | .timer k => (s.1, s.2.fire k)

/-- The workbench and its tabs after some moments. -/
def live (s : Studio) (moments : List Moment) : Studio × Tabs :=
  moments.foldl pass (s, Tabs.start)

/-- The address that is handed out at the moment, if one is, with what happens to its window. -/
def Moment.handedOut? : Moment → Option (String × Opening)
  | .action (.renderInTab b) => b.handedOut?
  | _ => none

/-- The addresses that are handed out, each with what happens to its window. -/
def handedOut (moments : List Moment) : List (String × Opening) := moments.filterMap Moment.handedOut?

/-- The browser makes up a new address for each blob: no address is handed out twice. -/
def HandsOutFresh (moments : List Moment) : Prop := ((handedOut moments).map Prod.fst).Nodup

variable {s : Studio} {moments : List Moment}

theorem live_concat (s : Studio) (moments : List Moment) (m : Moment) :
    live s (moments ++ [m]) = pass (live s moments) m := by
  rw [live, List.foldl_concat, live]

/-! ## Single moments -/

/-- Showing a page in a new tab changes the notice alone. -/
theorem renderInTab_eq (s : Studio) (b : Behaviour) (t : Tabs) :
    s.renderInTab b t =
      ({ s with notice? := b.failure?.map TabError.message }, (t.deliver b s.project.page).1) := by
  have hanswer := t.answer_deliver b s.project.page
  unfold renderInTab
  -- What the page is does not matter from here on.
  generalize t.deliver b s.project.page = delivery at hanswer ⊢
  obtain ⟨u, answer⟩ := delivery
  obtain rfl : answer = b.failure?.elim (.ok ()) .error := hanswer
  cases b.failure? with
  | none => rfl
  | some e => rfl

/-- No other action has to do with tabs. -/
theorem tabs_act (s : Studio × Tabs) {a : Action} (ha : ∀ b, a ≠ .renderInTab b) :
    (act s a).2 = s.2 := by
  cases a with
  | renderInTab b => exact absurd rfl (ha b)
  | _ => simp only [act]

/-- A moment keeps the account. -/
theorem accounts_pass {s : Studio × Tabs} {given : List (String × Opening)} (h : s.2.Accounts given)
    (m : Moment) : (pass s m).2.Accounts (given ++ m.handedOut?.toList) := by
  cases m with
  | timer k =>
    have hnone : (Moment.timer k).handedOut? = none := rfl
    rw [hnone, Option.toList_none, List.append_nil]
    exact h.fire k
  | action a =>
    by_cases ha : ∃ b, a = .renderInTab b
    · obtain ⟨b, rfl⟩ := ha
      show (s.1.renderInTab b s.2).2.Accounts (given ++ b.handedOut?.toList)
      rw [renderInTab_eq]
      exact h.deliver b _
    · have hsame : (pass s (.action a)).2 = s.2 := tabs_act s fun b hb => ha ⟨b, hb⟩
      have hnone : (Moment.action a).handedOut? = none := by
        cases a with
        | renderInTab b => exact absurd ⟨b, rfl⟩ ha
        | _ => rfl
      rw [hsame, hnone, Option.toList_none, List.append_nil]
      exact h

/-- An address that is given back at a moment is that of a window that did not open then, or a timer
fires for it. -/
theorem pass_of_count_lt {s : Studio × Tabs} {m : Moment} {a : String}
    (h : s.2.calls.count (.revoke a) < (pass s m).2.calls.count (.revoke a)) :
    (∃ o, m.handedOut? = some (a, o) ∧ o ≠ .opened) ∨
      ∃ k, m = .timer k ∧ s.2.waiting[k]? = some a := by
  cases m with
  | timer k => exact .inr ⟨k, rfl, Tabs.getElem?_waiting_of_count_lt h⟩
  | action a' =>
    by_cases ha : ∃ b, a' = .renderInTab b
    · obtain ⟨b, rfl⟩ := ha
      rw [pass, act, renderInTab_eq] at h
      exact .inl (Tabs.exists_of_count_lt h)
    · have hsame : (pass s (.action a')).2 = s.2 := tabs_act s fun b hb => ha ⟨b, hb⟩
      rw [hsame] at h
      exact absurd h (Nat.lt_irrefl _)

/-! ## Histories -/

theorem accounts_live (s : Studio) (moments : List Moment) :
    (live s moments).2.Accounts (handedOut moments) := by
  induction moments using List.reverseRecOn with
  | nil => exact Tabs.accounts_start
  | append_singleton moments m ih =>
    have hm : [m].filterMap Moment.handedOut? = m.handedOut?.toList := by
      cases hm : m.handedOut? <;> simp [hm]
    rw [live_concat, handedOut, List.filterMap_append, hm]
    exact accounts_pass ih m

theorem foldl_pass_timers (s : Studio × Tabs) (ks : List Nat) :
    (ks.map Moment.timer).foldl pass s = (s.1, ks.foldl Tabs.fire s.2) := by
  induction ks generalizing s with
  | nil => rfl
  | cons k ks ih => exact ih (s.1, s.2.fire k)

theorem handedOut_append_timers (moments : List Moment) (ks : List Nat) :
    handedOut (moments ++ ks.map Moment.timer) = handedOut moments := by
  have hnone : (ks.map Moment.timer).filterMap Moment.handedOut? = [] := by
    rw [List.filterMap_map]
    exact List.filterMap_eq_nil_iff.mpr fun _ _ => rfl
  rw [handedOut, List.filterMap_append, hnone, List.append_nil, handedOut]

/-- After these moments the pending timers fire, first come, first served. -/
def settling (s : Studio) (moments : List Moment) : List Moment :=
  (List.replicate (live s moments).2.pending.length 0).map .timer

theorem live_settling (s : Studio) (moments : List Moment) :
    live s (moments ++ settling s moments) =
      ((live s moments).1, (live s moments).2.settle) := by
  rw [live, List.foldl_append, ← live, settling, foldl_pass_timers, Tabs.settle_eq_foldl_fire]

/-! ## Every address is given back -/

/-- How the addresses are given back through some moments. -/
structure GivesBack (s : Studio) (moments : List Moment) : Prop where
  /-- A window is opened at each address. -/
  windows_eq : (live s moments).2.windows = (handedOut moments).map Prod.fst
  /-- At any moment each address that was handed out was given back once or waits for one timer, and
  no other address was given back. -/
  count_add_count : ∀ a, (live s moments).2.calls.count (.revoke a) +
      (live s moments).2.waiting.count a =
    if a ∈ (handedOut moments).map Prod.fst then 1 else 0
  /-- What waits was not given back yet. -/
  count_of_waiting : ∀ a ∈ (live s moments).2.waiting,
    (live s moments).2.calls.count (.revoke a) = 0
  /-- Only addresses of windows that opened wait. -/
  opened_of_mem : ∀ p ∈ (live s moments).2.pending,
    p.milliseconds = Settings.tabAddressLifetime ∧ (p.address, .opened) ∈ handedOut moments
  /-- They are given back when their timer fires and at no other moment. -/
  timer_of_opened : ∀ before m after a, moments = before ++ m :: after →
    (a, .opened) ∈ handedOut moments →
    (live s before).2.calls.count (.revoke a) <
      (live s (before ++ [m])).2.calls.count (.revoke a) →
    ∃ k, m = .timer k ∧ (live s before).2.waiting[k]? = some a
  /-- The address of a window that did not open was given back, also when it was handed out at the
  last of the moments. -/
  count_of_unopened : ∀ a o, (a, o) ∈ handedOut moments → o ≠ .opened →
    (live s moments).2.calls.count (.revoke a) = 1
  /-- Letting all timers fire is such a history of its own. -/
  settles : live s (moments ++ settling s moments) =
    ((live s moments).1, (live s moments).2.settle)
  /-- After it each address was given back once, and no other. -/
  count_settle : ∀ a, (live s moments).2.settle.calls.count (.revoke a) =
    if a ∈ (handedOut moments).map Prod.fst then 1 else 0

theorem givesBack_live (s : Studio) (h : HandsOutFresh moments) : GivesBack s moments where
  windows_eq := (accounts_live s moments).windows_eq
  count_add_count := (accounts_live s moments).count_add_count h
  count_of_waiting _ ha := (accounts_live s moments).count_revoke_of_mem_waiting h ha
  opened_of_mem := (accounts_live s moments).opened_of_mem
  timer_of_opened := by
    rintro before m after a rfl ha hlt
    rw [live_concat] at hlt
    rcases pass_of_count_lt hlt with ⟨o, hm, ho⟩ | htimer
    · have hmem : (a, o) ∈ handedOut (before ++ m :: after) := by
        rw [handedOut, List.filterMap_append, List.filterMap_cons_some hm]
        exact List.mem_append_right _ List.mem_cons_self
      exact absurd (Tabs.eq_of_mem_given h hmem ha) ho
    · exact htimer
  count_of_unopened _ _ ha ho := (accounts_live s moments).count_revoke_of_ne h ha ho
  settles := live_settling s moments
  count_settle a := by
    have hsame : handedOut (moments ++ settling s moments) = handedOut moments :=
      handedOut_append_timers moments _
    have hfresh : HandsOutFresh (moments ++ settling s moments) := by
      rw [HandsOutFresh, hsame]
      exact h
    have hcount := (accounts_live s (moments ++ settling s moments)).count_add_count hfresh a
    rw [live_settling, hsame] at hcount
    exact hcount

/-- In whatever order the timers fire among the actions, every address is given back exactly once, by
its timer if a window opened at it and otherwise at once, as long as the browser hands out no address
twice. Showing a page leaves all but the notice alone, which is gone if a window opened and otherwise
reports the first step that failed. -/
theorem addresses_given_back (s : Studio) (moments : List Moment) (h : HandsOutFresh moments) :
    GivesBack s moments ∧
    ∀ (t : Studio × Tabs) (b : Behaviour),
      (act t (.renderInTab b)).1 = { t.1 with notice? := b.failure?.map TabError.message } ∧
      ((act t (.renderInTab b)).1.notice? = none ↔ b.opening? = some .opened) := by
  refine ⟨givesBack_live s h, fun t b => ?_⟩
  have hstate : (act t (.renderInTab b)).1 =
      { t.1 with notice? := b.failure?.map TabError.message } := by
    rw [act, renderInTab_eq]
  refine ⟨hstate, ?_⟩
  rw [hstate, Option.map_eq_none_iff]
  exact b.failure?_eq_none_iff

/-- Two windows open, and the timer of the second fires before the first. In between one window is
refused, one cannot be opened and one blob gets no address. -/
def interleaved : List Moment :=
  [.action (.renderInTab ⟨true, true, some "blob:a", .opened⟩),
    .action (.renderInTab ⟨true, true, some "blob:b", .refused⟩),
    .action (.renderInTab ⟨true, true, none, .opened⟩),
    .action (.renderInTab ⟨true, true, some "blob:c", .opened⟩),
    .timer 1,
    .action (.renderInTab ⟨true, true, some "blob:d", .failed⟩)]

theorem addresses_given_back_interleaved :
    HandsOutFresh interleaved ∧
    (live start interleaved).2.waiting = ["blob:a"] ∧
    ((live start interleaved).2.calls.count (.revoke "blob:a") = 0 ∧
      (live start interleaved).2.settle.calls.count (.revoke "blob:a") = 1) ∧
    (∀ a ∈ ["blob:b", "blob:c", "blob:d"],
      (live start interleaved).2.calls.count (.revoke a) = 1 ∧
      (live start interleaved).2.settle.calls.count (.revoke a) = 1) ∧
    (act (live start interleaved) (.renderInTab ⟨true, false, none, .opened⟩)).1.notice? =
      some "Failed to create preview document" := by
  have hfresh : HandsOutFresh interleaved := by
    unfold HandsOutFresh
    decide
  obtain ⟨hback, hrest⟩ := addresses_given_back start interleaved hfresh
  have hwaiting : (live start interleaved).2.waiting = ["blob:a"] := rfl
  have hgiven : handedOut interleaved = [("blob:a", .opened), ("blob:b", .refused),
      ("blob:c", .opened), ("blob:d", .failed)] := rfl
  refine ⟨hfresh, hwaiting, ⟨?_, ?_⟩, fun a ha => ?_, ?_⟩
  · exact hback.count_of_waiting "blob:a" (hwaiting ▸ List.mem_cons_self)
  · rw [hback.count_settle, hgiven]
    decide
  · have hmem : a ∈ (handedOut interleaved).map Prod.fst := by
      rw [hgiven]
      exact List.mem_cons_of_mem _ ha
    have hnot : a ∉ (live start interleaved).2.waiting := by
      rw [hwaiting]
      revert a
      decide
    have hcount := hback.count_add_count a
    rw [if_pos hmem, List.count_eq_zero_of_not_mem hnot] at hcount
    rw [hback.count_settle, if_pos hmem]
    exact ⟨hcount, rfl⟩
  · rw [(hrest _ _).1]
    rfl

end Workbench.Studio
