import Mathlib.Data.Nat.Find
import Workbench.Page.Document
import Workbench.Proofs.Text.Bytes
import Workbench.Proofs.Text.Occurrence

/-!
# The text of an authored document

The console script is put before the first closing tag of a head, in any ASCII letter case, and nothing
else in the document changes; a text without such a tag stands as it is in the body of a page
(`authored_text_kept`).

The place can be found in the bytes of the lowered text. That it is one between two characters of the
document, and the same one, holds of every text: only ASCII capitals are lowered, and no other character
changes its length in bytes.
-/

namespace Workbench.Text

variable {marker s before after : List Char}

/-- The text is cut where the marker begins if it does not begin earlier. -/
theorem splitBefore?_append (hm : beginsAnyCase marker after = true)
    (hn : ∀ a b, before = a ++ b → b ≠ [] → beginsAnyCase marker (b ++ after) = false) :
    splitBefore? marker (before ++ after) = some (before, after) := by
  induction before with
  | nil =>
    rw [List.nil_append]
    cases after with
    | nil => rw [splitBefore?, if_pos hm]
    | cons c after => rw [splitBefore?, if_pos hm]
  | cons c before ih =>
    have hc : beginsAnyCase marker (c :: (before ++ after)) = false :=
      hn [] (c :: before) rfl (List.cons_ne_nil _ _)
    rw [List.cons_append, splitBefore?, if_neg (by simp [hc]),
      ih fun a b hab => hn (c :: a) b (congrArg (c :: ·) hab)]
    rfl

theorem splitBefore?_eq_none (hne : marker ≠ []) (h : occurrences marker s = 0) :
    splitBefore? marker s = none := by
  rw [occurrences_eq_zero_iff hne] at h
  by_contra hs
  obtain ⟨⟨before, after⟩, hs⟩ := Option.ne_none_iff_exists'.mp hs
  obtain ⟨rfl, hm⟩ := splitBefore?_eq_some hs
  obtain ⟨w, rest, rfl, hw⟩ := beginsAnyCase_iff.mp hm
  exact h before w rest rfl hw

/-- In the bytes of the text the marker stands behind `i` bytes, and nowhere before. -/
def FirstAt (marker text : String) (i : Nat) : Prop :=
  (∃ x y, text.toUTF8.data.toList = x ++ (marker.toUTF8.data.toList ++ y) ∧ x.length = i) ∧
  ∀ x y, text.toUTF8.data.toList = x ++ (marker.toUTF8.data.toList ++ y) → i ≤ x.length

/-- An ASCII marker in lower case stands behind `i` bytes of the lowered text exactly if it begins in
the text itself behind characters of `i` bytes. -/
theorem exists_bytes_iff {marker text : String} {i : Nat}
    (hm : ∀ c ∈ marker.toList, c.toNat < 0x80) (hne : marker.toList ≠ []) :
    (∃ x y, (asciiLower text).toUTF8.data.toList = x ++ (marker.toUTF8.data.toList ++ y) ∧
      x.length = i) ↔
    ∃ u v, text.toList = u ++ v ∧ (utf8 u).length = i ∧ beginsAnyCase marker.toList v = true := by
  rw [toUTF8_eq, toUTF8_eq, toList_asciiLower]
  constructor
  · rintro ⟨x, y, h, rfl⟩
    obtain ⟨a, b, hab, rfl, -⟩ := exists_of_utf8_eq hm hne h
    obtain ⟨u, v, hs, rfl, hv⟩ := List.map_eq_append_iff.mp hab
    obtain ⟨w, rest, rfl, hw, -⟩ := List.map_eq_append_iff.mp hv
    exact ⟨u, _, hs, (length_utf8_map_toLower u).symm, beginsAnyCase_iff.mpr ⟨w, rest, rfl, hw⟩⟩
  · rintro ⟨u, v, hs, rfl, hv⟩
    obtain ⟨w, rest, rfl, hw⟩ := beginsAnyCase_iff.mp hv
    refine ⟨utf8 (u.map Char.toLower), utf8 (rest.map Char.toLower), ?_, length_utf8_map_toLower u⟩
    rw [hs, List.map_append, List.map_append, hw, utf8_append, utf8_append]

theorem firstAt_asciiLower_iff {marker text : String} {i : Nat}
    (hm : ∀ c ∈ marker.toList, c.toNat < 0x80) (hne : marker.toList ≠ []) :
    FirstAt marker (asciiLower text) i ↔
      (∃ u v, text.toList = u ++ v ∧ (utf8 u).length = i ∧ beginsAnyCase marker.toList v = true) ∧
      ∀ u v, text.toList = u ++ v → beginsAnyCase marker.toList v = true → i ≤ (utf8 u).length := by
  refine and_congr (exists_bytes_iff hm hne) ⟨fun h u v hs hv => ?_, fun h x y hxy => ?_⟩
  · obtain ⟨x, y, hxy, hx⟩ := (exists_bytes_iff hm hne).mpr ⟨u, v, hs, rfl, hv⟩
    exact hx ▸ h x y hxy
  · obtain ⟨u, v, hs, hu, hv⟩ := (exists_bytes_iff hm hne).mp ⟨x, y, hxy, rfl⟩
    exact hu ▸ h u v hs hv

end Workbench.Text

namespace Workbench.Page

open Text

/-- What composing makes of the text of an authored document. -/
structure KeepsText (content : String) : Prop where
  /-- In the lowered text the tag has a first place exactly if the text holds it in some case. -/
  found_iff : (∃ i, FirstAt "</head>" (asciiLower content) i) ↔ occurrences headEnd content.toList ≠ 0
  /-- The text is cut at this place, which lies between two of its characters, and the console script
  is put there. -/
  cut : ∀ i, FirstAt "</head>" (asciiLower content) i →
    String.Pos.Raw.IsValid content ⟨i⟩ ∧
    ∃ before after, content = before ++ after ∧ before.utf8ByteSize = i ∧
      beginsAnyCase headEnd after.toList = true ∧ occurrences headEnd before.toList = 0 ∧
      ofDocument content = before ++ (Console.instrument ++ after)
  wrapped : occurrences headEnd content.toList = 0 →
    ofDocument content = opening ++ (Console.instrument ++
      ("</head>\n<body>\n" ++ (content ++ "\n</body>\n</html>\n")))

theorem firstAt_headEnd_iff {content : String} {i : Nat} :
    FirstAt "</head>" (asciiLower content) i ↔
      (∃ u v, content.toList = u ++ v ∧ (utf8 u).length = i ∧ beginsAnyCase headEnd v = true) ∧
      ∀ u v, content.toList = u ++ v → beginsAnyCase headEnd v = true → i ≤ (utf8 u).length :=
  firstAt_asciiLower_iff (List.forall_iff_forall_mem.mp (by decide)) (by decide)

theorem exists_firstAt_iff (content : String) :
    (∃ i, FirstAt "</head>" (asciiLower content) i) ↔ occurrences headEnd content.toList ≠ 0 := by
  rw [Ne, occurrences_eq_zero_iff (by decide)]
  constructor
  · rintro ⟨i, hi⟩ h
    obtain ⟨⟨u, v, hs, -, hv⟩, -⟩ := firstAt_headEnd_iff.mp hi
    obtain ⟨w, rest, rfl, hw⟩ := beginsAnyCase_iff.mp hv
    exact h u w rest hs hw
  · intro h
    push Not at h
    obtain ⟨u, w, b, hs, hw⟩ := h
    have hex : ∃ i u v, content.toList = u ++ v ∧ (utf8 u).length = i ∧
        beginsAnyCase headEnd v = true :=
      ⟨_, u, w ++ b, hs, rfl, beginsAnyCase_iff.mpr ⟨w, b, rfl, hw⟩⟩
    classical
    exact ⟨Nat.find hex, firstAt_headEnd_iff.mpr ⟨Nat.find_spec hex, fun u v hs hv =>
      Nat.find_min' hex ⟨u, v, hs, rfl, hv⟩⟩⟩

/-- Before the first place no tag begins, not even one that runs over it. -/
theorem beginsAnyCase_eq_false_of_firstAt {content : String} {u v a b : List Char}
    (hfirst : ∀ u v, content.toList = u ++ v → beginsAnyCase headEnd v = true →
      (utf8 (a ++ b)).length ≤ (utf8 u).length)
    (hs : content.toList = u ++ v) (hu : u = a ++ b) (hb : b ≠ []) :
    beginsAnyCase headEnd (b ++ v) = false := by
  by_contra h
  rw [Bool.not_eq_false] at h
  have hle := hfirst a (b ++ v) (by rw [hs, hu, List.append_assoc]) h
  obtain ⟨c, b, rfl⟩ := List.exists_cons_of_ne_nil hb
  have hpos := List.length_pos_iff.mpr (utf8EncodeChar_ne_nil c)
  rw [utf8_append, utf8_cons, List.length_append, List.length_append] at hle
  omega

theorem exists_ofDocument_of_firstAt {content : String} {i : Nat}
    (h : FirstAt "</head>" (asciiLower content) i) :
    ∃ before after, content = before ++ after ∧ before.utf8ByteSize = i ∧
      beginsAnyCase headEnd after.toList = true ∧ occurrences headEnd before.toList = 0 ∧
      ofDocument content = before ++ (Console.instrument ++ after) := by
  obtain ⟨⟨u, v, hs, rfl, hv⟩, hfirst⟩ := firstAt_headEnd_iff.mp h
  have hnone (a b : List Char) (hu : u = a ++ b) (hb : b ≠ []) :
      beginsAnyCase headEnd (b ++ v) = false :=
    beginsAnyCase_eq_false_of_firstAt (hu ▸ hfirst) hs hu hb
  have hcut : splitBefore? headEnd content.toList = some (u, v) := hs ▸ splitBefore?_append hv hnone
  refine ⟨String.ofList u, String.ofList v, ?_, ?_, ?_, ?_, ?_⟩
  · rw [← String.ofList_append, ← hs, String.ofList_toList]
  · rw [← length_utf8, String.toList_ofList]
  · rwa [String.toList_ofList]
  · rw [String.toList_ofList, occurrences_eq_zero_iff (by decide)]
    rintro a w b hu hw
    have hne : w ++ b ≠ [] := fun hn => by
      rw [(List.append_eq_nil_iff.mp hn).1] at hw
      exact absurd hw (by decide)
    have hbegins : beginsAnyCase headEnd (w ++ b ++ v) = true :=
      beginsAnyCase_iff.mpr ⟨w, b ++ v, List.append_assoc .., hw⟩
    exact Bool.false_ne_true ((hnone a (w ++ b) hu hne).symm.trans hbegins)
  · unfold ofDocument
    rw [hcut]
    exact String.append_assoc

/-- The console script is all that is added to a document with a head, at one place, and a text without
one is kept in a page around it. -/
theorem authored_text_kept (content : String) : KeepsText content where
  found_iff := exists_firstAt_iff content
  cut i h := by
    obtain ⟨before, after, hs, rfl, hrest⟩ := exists_ofDocument_of_firstAt h
    exact ⟨String.Pos.Raw.isValid_iff_exists_append.mpr ⟨before, after, hs, rfl⟩,
      before, after, hs, rfl, hrest⟩
  wrapped h := by
    unfold ofDocument
    rw [splitBefore?_eq_none (by decide) h, headToBody, closing]
    simp only [String.append_assoc]
    rfl

end Workbench.Page
