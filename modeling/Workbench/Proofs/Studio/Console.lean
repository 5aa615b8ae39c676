import Mathlib.Data.List.DropRight
import Mathlib.Data.List.Induction
import Workbench.Proofs.Console.BoundedLog
import Workbench.Studio.Basic
import Workbench.Proofs.View.Panels

/-!
# The console through a history

An action adds the line of the event that it brings, if the message is accepted (`act_of_event?`), or
empties the console (`act_of_clears`), or leaves it as it is (`console_act`). So the console holds the newest of the events that
were accepted since it was last emptied (`exists_listsEvents_run`), and its panel shows them
(`newest_events_shown`).

The panel is a list that knows its lines by their ids. These grow with every event and are not reset
when the console is emptied, so no line is ever taken for another (`ListsEvents.lineKey_lt`).
-/

namespace Workbench.Studio

open Console Browser View

/-- The event that the action brings, if it is a message that is accepted. -/
def Action.event? : Action → Option Event
  | .receive fromPage data => (accept fromPage data).toOption
  | _ => none

/-- The action empties the console. -/
def Action.clears : Action → Bool
  | .clearConsole => true
  | _ => false

/-- The events that a history brings after it last emptied the console, in order. -/
def acceptedEvents (history : List Action) : List Event :=
  (history.rtakeWhile fun a => !a.clears).filterMap Action.event?

theorem acceptedEvents_concat (history : List Action) (a : Action) :
    acceptedEvents (history ++ [a]) =
      if a.clears then [] else acceptedEvents history ++ a.event?.toList := by
  rw [acceptedEvents, List.rtakeWhile_concat]
  by_cases hc : a.clears = true
  · simp [hc]
  · cases he : a.event? <;> simp [hc, he, acceptedEvents]

/-! ## What an action does to the console -/

/-- An event comes with a message that is accepted, and it is reported. -/
theorem act_of_event? {s : Studio × Tabs} {a : Action} {e : Event} (he : a.event? = some e) :
    (act s a).1 = s.1.report e := by
  cases a with
  | receive fromPage data =>
    rw [Action.event?] at he
    rw [act, receive]
    split
    · rename_i hok
      rw [hok] at he
      rw [Option.some.inj he]
    · rename_i herror
      rw [herror] at he
      cases he
  | _ => cases he

theorem act_of_clears {s : Studio × Tabs} {a : Action} (hc : a.clears = true) :
    (act s a).1 = s.1.clearConsole := by
  cases a with
  | clearConsole => rfl
  | _ => cases hc

/-- The console with the id of its next line. -/
def numberedLog (s : Studio) : BoundedLog Line × Nat := (s.console, s.nextLine)

/-- No other action has to do with the console. -/
theorem numberedLog_act (s : Studio × Tabs) {a : Action} (he : a.event? = none)
    (hc : a.clears = false) : (act s a).1.numberedLog = s.1.numberedLog := by
  cases a with
  | receive fromPage data =>
    rw [Action.event?] at he
    rw [act, receive]
    split
    · rename_i hok
      rw [hok] at he
      cases he
    · rfl
  | add name =>
    simp only [act, Studio.add]
    split <;> rfl
  | rename id name =>
    simp only [act, Studio.rename]
    split <;> rfl
  | importAll uploads =>
    exact importAll_induction (P := fun t => t.numberedLog = s.1.numberedLog) rfl
      (fun _ _ _ h => h) (fun _ _ h => h) uploads
  | renderInTab b =>
    show (s.1.renderInTab b s.2).1.numberedLog = s.1.numberedLog
    obtain ⟨notice?, hn⟩ := exists_renderInTab_eq s.1 b s.2
    rw [hn]
    rfl
  | clearConsole => cases hc
  | take _ _ | remove _ | edit _ _ | activate _ | setMode _ | render | hidePreview | setNotice _ => rfl

theorem console_act (s : Studio × Tabs) {a : Action} (he : a.event? = none) (hc : a.clears = false) :
    (act s a).1.console = s.1.console :=
  congrArg Prod.fst (numberedLog_act s he hc)

theorem nextLine_act (s : Studio × Tabs) {a : Action} (he : a.event? = none)
    (hc : a.clears = false) : (act s a).1.nextLine = s.1.nextLine :=
  congrArg Prod.snd (numberedLog_act s he hc)

theorem capacity_console_act (s : Studio × Tabs) (a : Action) :
    (act s a).1.console.capacity = s.1.console.capacity := by
  cases he : a.event? with
  | some e => rw [act_of_event? he, report, BoundedLog.capacity_push]
  | none =>
    cases hc : a.clears with
    | true => rw [act_of_clears hc, clearConsole, BoundedLog.capacity_clear]
    | false => rw [console_act s he hc]

theorem capacity_console (s : Studio) (history : List Action) :
    (s.run history).1.console.capacity = s.console.capacity := by
  induction history using List.reverseRecOn with
  | nil => rfl
  | append_singleton history a ih => rw [run_concat, capacity_console_act, ih]

/-! ## The lines of the events -/

/-- The lines of some events, with consecutive ids from `first` on. -/
def linesFrom (first : Nat) (events : List Event) : List Line :=
  (events.zipIdx first).map fun (e, id) => Line.ofEvent id e

theorem linesFrom_concat (first : Nat) (events : List Event) (e : Event) :
    linesFrom first (events ++ [e]) =
      linesFrom first events ++ [Line.ofEvent (first + events.length) e] := by
  rw [linesFrom, List.zipIdx_append, List.map_append]
  rfl

theorem length_linesFrom (first : Nat) (events : List Event) :
    (linesFrom first events).length = events.length := by
  rw [linesFrom, List.length_map, List.length_zipIdx]

/-- What the lines say does not depend on their ids. -/
theorem map_said_linesFrom (first : Nat) (events : List Event) :
    (linesFrom first events).map (fun l => (l.level, l.text)) =
      events.map fun e => (e.level, " ".intercalate (e.args.map shown)) := by
  have hfst : (events.zipIdx first).map Prod.fst = events := List.zipIdx_map_fst first events
  rw [linesFrom, List.map_map]
  conv_rhs => rw [← hfst, List.map_map]
  rfl

theorem map_lineKey_linesFrom (first : Nat) (events : List Event) :
    (linesFrom first events).map lineKey = List.range' first events.length := by
  rw [linesFrom, List.map_map]
  exact List.zipIdx_map_snd first events

/-- The console holds the newest lines of the events, and their ids are the last that were given. -/
structure ListsEvents (s : Studio) (first : Nat) (events : List Event) : Prop where
  nextLine_eq : s.nextLine = first + events.length
  holdsNewest : s.console.HoldsNewest (linesFrom first events)

/-- An action adds its event to those that the console lists, or it empties the console. -/
theorem ListsEvents.act {s : Studio × Tabs} {first : Nat} {events : List Event}
    (h : s.1.ListsEvents first events) (a : Action) :
    ∃ first', (Studio.act s a).1.ListsEvents first'
      (if a.clears then [] else events ++ a.event?.toList) := by
  cases hc : a.clears with
  | true =>
    rw [if_pos rfl, act_of_clears hc]
    exact ⟨s.1.nextLine, rfl, BoundedLog.holdsNewest_empty _⟩
  | false =>
    rw [if_neg Bool.false_ne_true]
    refine ⟨first, ?_⟩
    cases he : a.event? with
    | none =>
      rw [Option.toList_none, List.append_nil]
      refine ⟨(nextLine_act s he hc).trans h.nextLine_eq, ?_⟩
      rw [console_act s he hc]
      exact h.holdsNewest
    | some e =>
      rw [Option.toList_some, act_of_event? he]
      refine ⟨?_, ?_⟩
      · rw [List.length_append, List.length_singleton, ← Nat.add_assoc, ← h.nextLine_eq]
        rfl
      · rw [linesFrom_concat, ← h.nextLine_eq]
        exact h.holdsNewest.push _

/-- The console lists the newest of the events since it was last emptied, whatever the project and
the file in the editor were at the beginning. -/
theorem exists_listsEvents_run (p : Project) (active? : Option Nat) (history : List Action) :
    ∃ first, ((ofProject p active?).run history).1.ListsEvents first (acceptedEvents history) := by
  induction history using List.reverseRecOn with
  | nil => exact ⟨0, rfl, BoundedLog.holdsNewest_empty _⟩
  | append_singleton history a ih =>
    obtain ⟨first, h⟩ := ih
    rw [run_concat, acceptedEvents_concat]
    exact h.act a

/-! ## The newest events -/

/-- The console holds the lines of the newest of these events, and its panel shows them. -/
structure ShowsNewest (console : BoundedLog Line) (events : List Event) : Prop where
  said_eq : console.items.map (fun l => (l.level, l.text)) =
    (BoundedLog.newest (min events.length Settings.consoleLimit) events).map fun e =>
      (e.level, " ".intercalate (e.args.map shown))
  dropped_eq : console.dropped = events.length - min events.length Settings.consoleLimit
  /-- The list of lines tells each of them from the others. -/
  keys_nodup : (console.items.map lineKey).Nodup
  /-- Each line shows its level and its text. -/
  lines_eq : (selectAll (ofTag "pre") (logPanel console)).map
      (fun n => (n.attribute? "data-level", n.shownText)) =
    console.items.map fun l => (some (.text l.level.name), l.text)
  count_eq : (selectAll (ofClass "count") (logPanel console)).map Node.shownText =
    [toString console.items.length]
  note_eq : (selectAll (ofClass "dropped") (logPanel console)).map Node.shownText =
    if 0 < console.dropped then [toString console.dropped ++ " earlier lines dropped"] else []

variable {s : Studio} {first : Nat} {events : List Event}

theorem ListsEvents.showsNewest (h : s.ListsEvents first events)
    (hc : s.console.capacity = Settings.consoleLimit) : ShowsNewest s.console events where
  said_eq := by
    rw [h.holdsNewest.items_eq, hc, ← BoundedLog.newest_map, map_said_linesFrom,
      BoundedLog.newest_map, BoundedLog.newest_min]
  dropped_eq := by
    rw [h.holdsNewest.dropped_eq, hc, length_linesFrom]
    omega
  keys_nodup := by
    rw [h.holdsNewest.items_eq, ← BoundedLog.newest_map, map_lineKey_linesFrom]
    exact (List.drop_sublist _ _).nodup List.nodup_range'
  lines_eq := by
    rw [selectAll_pre_logPanel, List.map_map]
    refine List.map_congr_left fun l _ => ?_
    rw [Function.comp_apply, attribute?_consoleLine, shownText_consoleLine]
  count_eq := selectAll_count_logPanel s.console
  note_eq := selectAll_dropped_logPanel s.console

/-- All lines that are shown were given ids before the next one. -/
theorem ListsEvents.lineKey_lt (h : s.ListsEvents first events) :
    ∀ l ∈ s.console.items, lineKey l < s.nextLine := by
  intro l hl
  rw [h.holdsNewest.items_eq] at hl
  have hkey : lineKey l ∈ (linesFrom first events).map lineKey :=
    List.mem_map_of_mem (List.mem_of_mem_drop hl)
  rw [map_lineKey_linesFrom, List.mem_range'_1] at hkey
  rw [h.nextLine_eq]
  exact hkey.2

/-- A line of the list that stays is the line that it was. -/
theorem ListsEvents.mem_of_lineKey_mem {s : Studio × Tabs} (h : s.1.ListsEvents first events)
    (a : Action) {l : Line} (hl : l ∈ (Studio.act s a).1.console.items)
    (hkey : lineKey l ∈ s.1.console.items.map lineKey) : l ∈ s.1.console.items := by
  cases he : a.event? with
  | some e =>
    rw [act_of_event? he] at hl
    have hmem : l ∈ s.1.console.items ++ [Line.ofEvent s.1.nextLine e] := List.mem_of_mem_drop hl
    rcases List.mem_append.mp hmem with hold | hnew
    · exact hold
    · -- The key of the new line is greater than those of the old ones.
      obtain ⟨l', hl', hsame⟩ := List.mem_map.mp hkey
      rw [List.mem_singleton.mp hnew] at hsame
      exact absurd (h.lineKey_lt l' hl') (hsame ▸ Nat.lt_irrefl _)
  | none =>
    cases hc : a.clears with
    | true =>
      rw [act_of_clears hc] at hl
      exact absurd hl List.not_mem_nil
    | false =>
      rw [console_act s he hc] at hl
      exact hl

/-- After any history the console holds the newest of the events that were accepted since it was
last emptied, and its panel shows them. No other action changes it, and lines that stay in the list are
never taken for others. -/
theorem newest_events_shown (p : Project) (active? : Option Nat) (history : List Action) :
    ShowsNewest ((ofProject p active?).run history).1.console (acceptedEvents history) ∧
    (∀ (s : Studio × Tabs) (a : Action), a.event? = none → a.clears = false →
      (act s a).1.console = s.1.console) ∧
    ∀ (a : Action), ∀ l ∈ (act ((ofProject p active?).run history) a).1.console.items,
      lineKey l ∈ ((ofProject p active?).run history).1.console.items.map lineKey →
      l ∈ ((ofProject p active?).run history).1.console.items := by
  obtain ⟨first, h⟩ := exists_listsEvents_run p active? history
  exact ⟨h.showsNewest (capacity_console _ history), fun s a => console_act s,
    fun a _ hl hkey => h.mem_of_lineKey_mem a hl hkey⟩

/-- A message with two arguments as the page posts it. -/
def greeting : Json :=
  .object [("level", .text "warn"), ("message", .list [.text "hello", .text "world"]),
    ("type", .text Settings.consoleTag)]

/-- A message without arguments. -/
def silence : Json := .object [("level", .text "warn"), ("type", .text Settings.consoleTag)]

/-- The message comes before the console is emptied, after it, and from elsewhere, and then a message
without arguments. -/
def thriceGreeted : List Action :=
  [.receive true greeting, .clearConsole, .receive true greeting, .receive false greeting, .render,
    .receive true silence]

theorem newest_events_shown_thriceGreeted :
    acceptedEvents thriceGreeted = [⟨.warn, [.text "hello", .text "world"]⟩, ⟨.warn, []⟩] ∧
    (start.run thriceGreeted).1.console.items.map (fun l => (l.level, l.text)) =
      [(.warn, "hello world"), (.warn, "")] ∧
    (selectAll (ofTag "pre") (logPanel (start.run thriceGreeted).1.console)).map Node.shownText =
      ["hello world", ""] ∧
    (selectAll (ofClass "count") (logPanel (start.run thriceGreeted).1.console)).map
      Node.shownText = ["2"] ∧
    (Action.receive false greeting).event? = none ∧
    (act (start.run thriceGreeted) (.receive false greeting)).1.console =
      (start.run thriceGreeted).1.console := by
  obtain ⟨h, hsame, -⟩ :=
    newest_events_shown Project.starter (firstId? Project.starter) thriceGreeted
  have he : acceptedEvents thriceGreeted =
      [⟨.warn, [.text "hello", .text "world"]⟩, ⟨.warn, []⟩] := rfl
  have hsaid : (start.run thriceGreeted).1.console.items.map (fun l => (l.level, l.text)) =
      [(.warn, "hello world"), (.warn, "")] := by
    rw [start, h.said_eq, he]
    rfl
  have htexts : (start.run thriceGreeted).1.console.items.map Line.text = ["hello world", ""] := by
    have := congrArg (List.map Prod.snd) hsaid
    rwa [List.map_map] at this
  refine ⟨he, hsaid, ?_, ?_, rfl, hsame _ _ rfl rfl⟩
  · have hlines := congrArg (List.map Prod.snd) h.lines_eq
    rw [List.map_map, List.map_map] at hlines
    exact hlines.trans htexts
  · have hlength := congrArg List.length htexts
    rw [List.length_map] at hlength
    rw [start, h.count_eq, ← start, hlength]
    rfl

end Workbench.Studio
