import Workbench.Proofs.View.Select
import Workbench.View.Basic

/-!
# What the console panel shows

The lines of the panel are its elements for preformatted text, the number of lines is in the element
of class `count`, and the note about dropped lines is the element of class `dropped`.
`selectAll_logPanel` finds all three at once; the others are cases of it.
-/

namespace Workbench.View

open Node Console

variable (log : BoundedLog Line)

theorem select_droppedNote (ok : String → List (String × Value) → Bool) (n : Nat) :
    (droppedNote n).select ok =
      if ok "div" [("class", .text "dropped")] then [droppedNote n] else [] := by
  unfold droppedNote tag
  simp [select, selectAll]

theorem select_consoleLine (ok : String → List (String × Value) → Bool) (l : Line) :
    (consoleLine l).select ok =
      if ok "pre" [("class", .text ("line " ++ l.level.name)), ("data-level", .text l.level.name)]
      then [consoleLine l] else [] := by
  unfold consoleLine tag
  simp [select, selectAll]

/-- The elements of the console panel that hold the others, by tag and attributes. -/
def logFrame : List (String × List (String × Value)) :=
  [("section", [("class", .text "panel")]), ("div", [("class", .text "header")]), ("span", []),
    ("div", [("class", .text "output")])]

/-- What a test selects that the frame of the panel does not pass. -/
theorem selectAll_logPanel {ok : String → List (String × Value) → Bool}
    (hframe : ∀ e ∈ logFrame, ok e.1 e.2 = false) :
    selectAll ok (logPanel log) =
      (if ok "span" [("class", .text "count")] then
        [tag "span" [("class", "count")] [text (toString log.size)]] else []) ++
      ((if 0 < log.dropped ∧ ok "div" [("class", .text "dropped")] = true then
        [droppedNote log.dropped] else []) ++
      log.items.flatMap fun l => (consoleLine l).select ok) := by
  obtain ⟨hpanel, hheader, hspan, houtput⟩ :
      ok "section" [("class", .text "panel")] = false ∧
      ok "div" [("class", .text "header")] = false ∧ ok "span" [] = false ∧
      ok "div" [("class", .text "output")] = false := by simpa [logFrame] using hframe
  have hnote : selectAll ok (if 0 < log.dropped then [droppedNote log.dropped] else []) =
      if 0 < log.dropped ∧ ok "div" [("class", .text "dropped")] = true then
        [droppedNote log.dropped] else [] := by
    by_cases hd : 0 < log.dropped
    · simp [hd, selectAll, select_droppedNote]
    · simp [hd, selectAll]
  simp only [logPanel, tag, selectAll, select, List.map_cons, List.map_nil, hpanel, hheader, hspan,
    houtput, selectAll_append, selectAll_map, hnote]
  simp

theorem shownText_droppedNote (n : Nat) :
    (droppedNote n).shownText = toString n ++ " earlier lines dropped" := by
  unfold droppedNote tag
  simp [shownText, shownTexts]

theorem selectAll_pre_logPanel :
    selectAll (ofTag "pre") (logPanel log) = log.items.map consoleLine := by
  rw [selectAll_logPanel log (by decide),
    if_neg (by decide), if_neg (by simp [ofTag]), List.nil_append, List.nil_append]
  simp only [select_consoleLine]
  exact (List.map_eq_flatMap (f := consoleLine) (l := log.items)).symm

theorem attribute?_consoleLine (l : Line) :
    (consoleLine l).attribute? "data-level" = some (.text l.level.name) :=
  rfl

theorem shownText_consoleLine (l : Line) : (consoleLine l).shownText = l.text := by
  unfold consoleLine tag
  simp [shownText, shownTexts]

/-- An element of a class that is not that of a line is in no line. -/
theorem select_ofClass_consoleLine {name : String}
    (hn : ∀ level : Level, "line " ++ level.name ≠ name) (l : Line) :
    (consoleLine l).select (ofClass name) = [] := by
  rw [select_consoleLine, if_neg]
  simpa [ofClass] using hn l.level

theorem selectAll_count_logPanel :
    (selectAll (ofClass "count") (logPanel log)).map shownText = [toString log.size] := by
  have hlines : (log.items.flatMap fun l => (consoleLine l).select (ofClass "count")) = [] :=
    List.flatMap_eq_nil_iff.mpr fun l _ =>
      select_ofClass_consoleLine (fun level => by cases level <;> decide) l
  rw [selectAll_logPanel log (by decide),
    if_pos (by decide), if_neg (by simp [ofClass]), hlines]
  simp [tag, shownText, shownTexts]

theorem selectAll_dropped_logPanel :
    (selectAll (ofClass "dropped") (logPanel log)).map shownText =
      if 0 < log.dropped then [toString log.dropped ++ " earlier lines dropped"] else [] := by
  have hlines : (log.items.flatMap fun l => (consoleLine l).select (ofClass "dropped")) = [] :=
    List.flatMap_eq_nil_iff.mpr fun l _ =>
      select_ofClass_consoleLine (fun level => by cases level <;> decide) l
  rw [selectAll_logPanel log (by decide),
    if_neg (by decide), hlines]
  by_cases hd : 0 < log.dropped
  · simp [hd, ofClass, shownText_droppedNote]
  · simp [hd]

end Workbench.View
