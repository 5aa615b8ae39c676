import Workbench.Console.Instrument
import Workbench.Proofs.Text.Occurrence

/-!
# The console script as an element

Between its opening line and its closing tag the console script holds no `<` at all. So for a marker
that begins with `<` it is enough to look at these two lines (`occurrences_instrument`).
-/

namespace Workbench.Console

theorem not_mem_join_cons {c : Char} {l : List Char} {texts : List String} (hl : c ∉ l)
    (ht : c ∉ (String.join texts).toList) :
    c ∉ (String.join (String.ofList l :: texts)).toList := by
  rw [String.join_cons, String.toList_append, String.toList_ofList, List.mem_append]
  exact not_or.mpr ⟨hl, ht⟩

theorem lt_not_mem_scriptHead : '<' ∉ scriptHead.toList :=
  not_mem_join_cons (by decide) (not_mem_join_cons (by decide) (by decide))

theorem lt_not_mem_scriptMiddle : '<' ∉ scriptMiddle.toList :=
  not_mem_join_cons (by decide) (not_mem_join_cons (by decide) (by decide))

theorem lt_not_mem_scriptTail : '<' ∉ scriptTail.toList := by
  rw [scriptTail]
  repeat refine not_mem_join_cons (by decide) ?_
  decide

/-- The console script is one element, and there is no `<` in it. -/
theorem exists_inner_instrument :
    ∃ inner : String, instrument = "<script>\n" ++ (inner ++ "</script>\n") ∧
      '<' ∉ inner.toList := by
  refine ⟨scriptHead ++ Text.quoted Settings.consoleTag ++ scriptMiddle
    ++ Text.quoted Settings.unserializable ++ scriptTail, ?_, ?_⟩
  · simp only [instrument, String.append_assoc]
  · have hq : '<' ∉ (Text.quoted Settings.consoleTag).toList := by decide
    have hq' : '<' ∉ (Text.quoted Settings.unserializable).toList := by decide
    simp only [String.toList_append, List.mem_append, not_or]
    exact ⟨⟨⟨⟨lt_not_mem_scriptHead, hq⟩, lt_not_mem_scriptMiddle⟩, hq'⟩, lt_not_mem_scriptTail⟩

theorem endsLine_instrument : Text.EndsLine instrument :=
  .append _ (Text.endsLine_ofList (by decide))

theorem occurrences_instrument {marker : List Char} (hn : '\n' ∉ '<' :: marker)
    (hm : '<' ∉ marker) :
    Text.occurrences ('<' :: marker) instrument.toList =
      Text.occurrences ('<' :: marker) "<script>\n".toList +
        Text.occurrences ('<' :: marker) "</script>\n".toList := by
  obtain ⟨inner, hi, hlt⟩ := exists_inner_instrument
  have hs : Text.EndsLine "<script>\n" := Text.endsLine_ofList (by decide)
  have ha : Text.Apart ('<' :: marker) inner.toList "</script>\n".toList := by
    refine Or.inr fun c hc => ?_
    rw [(String.toList_ofList : "</script>\n".toList = _)] at hc
    obtain rfl : '<' = c := Option.some.inj hc
    exact hm
  rw [hi, Text.occurrences_endsLine_append hn hs, String.toList_append,
    Text.occurrences_append ha, Text.occurrences_of_not_mem (by decide) hlt, Nat.zero_add]

end Workbench.Console
