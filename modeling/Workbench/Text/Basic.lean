/-!
# Texts and their characters

What every other module needs of texts.

* A class of characters that a standard gives by enumeration is stored as a list of closed ranges of
  code points. Membership is decided by a walk along the list, so a statement about one character
  evaluates without search lemmas.
* The blank characters are the 25 code points with the Unicode property `White_Space`. The zero width
  space U+200B and the byte order mark U+FEFF are not among them. Trimming removes blanks at the ends
  and nothing inside.
* Lowercasing here touches the 26 Latin capitals only. It maps character by character, so it keeps the
  length of a text and every position in it.
-/

namespace Workbench.Text

/-! ## Ranges of code points -/

/-- A closed range of code points, first and last. -/
abbrev CodeRange := Nat × Nat

/-- Whether the code point of `c` lies in one of the ranges. -/
def inRanges (ranges : List CodeRange) (c : Char) : Bool :=
  ranges.any fun r => r.1 ≤ c.toNat && c.toNat ≤ r.2

theorem inRanges_iff {ranges : List CodeRange} {c : Char} :
    inRanges ranges c = true ↔ ∃ r ∈ ranges, r.1 ≤ c.toNat ∧ c.toNat ≤ r.2 := by
  simp [inRanges, List.any_eq_true]

/-! ## White space -/

/-- The code points with the property `White_Space`. -/
def blankRanges : List CodeRange :=
  [(0x09, 0x0D), (0x20, 0x20), (0x85, 0x85), (0xA0, 0xA0), (0x1680, 0x1680), (0x2000, 0x200A),
  (0x2028, 0x2029), (0x202F, 0x202F), (0x205F, 0x205F), (0x3000, 0x3000)]

/-- White space in the sense of Unicode. -/
def isBlank (c : Char) : Bool := inRanges blankRanges c

/-- The two blanks that indent a line. -/
def isIndent (c : Char) : Bool := c == ' ' || c == '\t'

/-- The text without the blanks at its end. -/
def dropBlankTail (s : List Char) : List Char := (s.reverse.dropWhile isBlank).reverse

/-- The text without the blanks at its end. -/
def trimEnd (s : String) : String := String.ofList (dropBlankTail s.toList)

/-- The text without the blanks at its two ends. -/
def trim (s : String) : String := String.ofList (dropBlankTail (s.toList.dropWhile isBlank))

theorem isBlank_of_isIndent {c : Char} (h : isIndent c = true) : isBlank c = true := by
  rcases Bool.or_eq_true _ _ ▸ h with h | h <;> (rw [eq_of_beq h]; decide)

@[simp] theorem dropBlankTail_nil : dropBlankTail [] = [] := rfl

/-- What trimming takes off is a run of blanks. -/
theorem dropBlankTail_append (s : List Char) :
    ∃ tail, s = dropBlankTail s ++ tail ∧ ∀ c ∈ tail, isBlank c = true := by
  refine ⟨(s.reverse.takeWhile isBlank).reverse, ?_, ?_⟩
  · have h := congrArg List.reverse
      (List.takeWhile_append_dropWhile (p := isBlank) (l := s.reverse))
    rw [List.reverse_append, List.reverse_reverse] at h
    exact h.symm
  · intro c hc
    exact List.all_eq_true.mp List.all_takeWhile c (List.mem_reverse.mp hc)

/-! ## ASCII letter case -/

/-- The text with its ASCII capitals in lower case and all else as it is. -/
def asciiLower (s : String) : String := String.ofList (s.toList.map Char.toLower)

@[simp] theorem toList_asciiLower (s : String) :
    (asciiLower s).toList = s.toList.map Char.toLower := by
  simp [asciiLower]

/-- The text ends with `tail`. -/
def endsWith (s tail : String) : Bool := tail.toList.isSuffixOf s.toList

/-- The text begins with `head`. -/
def startsWith (s head : String) : Bool := head.toList.isPrefixOf s.toList

/-- The text begins with `marker`, a lowercase text, in any ASCII letter case. -/
def beginsAnyCase (marker s : List Char) : Bool := (s.take marker.length).map Char.toLower == marker

/-- The text cut before the first place where `marker` begins, in any ASCII letter case. -/
def splitBefore? (marker : List Char) : List Char → Option (List Char × List Char)
  | [] => if beginsAnyCase marker [] then some ([], []) else none
  | c :: rest =>
    if beginsAnyCase marker (c :: rest) then some ([], c :: rest)
    else (splitBefore? marker rest).map fun (before, after) => (c :: before, after)

/-- The two parts of the cut put together are the text, and the second begins with the marker. -/
theorem splitBefore?_eq_some {marker s before after : List Char}
    (h : splitBefore? marker s = some (before, after)) :
    s = before ++ after ∧ beginsAnyCase marker after = true := by
  induction s generalizing before with
  | nil =>
    rw [splitBefore?] at h
    split at h
    · rename_i hm
      cases h
      exact ⟨rfl, hm⟩
    · cases h
  | cons c rest ih =>
    rw [splitBefore?] at h
    split at h
    · rename_i hm
      cases h
      exact ⟨rfl, hm⟩
    · obtain ⟨⟨b, a⟩, hb, he⟩ := Option.map_eq_some_iff.mp h
      cases he
      obtain ⟨rfl, hm⟩ := ih hb
      exact ⟨rfl, hm⟩

end Workbench.Text
