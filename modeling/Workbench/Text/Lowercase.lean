import Workbench.Text.CaseTable

/-!
# Full lowercase

The lowercase form of a text beyond ASCII: one character becomes one character, with two
exceptions. `İ` (U+0130) becomes `i` and a combining dot. A capital sigma becomes the final form
`ς` at the end of a word, that is, when a cased character stands before it and none after it, both
looked up across characters that a search for case ignores; elsewhere it becomes `σ`.
-/

namespace Workbench.Text

/-- The character has a case. -/
def isCased (c : Char) : Bool := c.isAlpha || inRanges casedRanges c

/-- The character is skipped by a search for a cased neighbour. -/
def isCaseIgnorable (c : Char) : Bool :=
  c == '\'' || c == '.' || c == ':' || c == '^' || c == '\x60' || inRanges caseIgnorableRanges c

/-- Whether the first character of `s` that has a say in case is cased. -/
def meetsCased (s : List Char) : Bool :=
  match s.dropWhile isCaseIgnorable with
  | [] => false
  | c :: _ => isCased c

/-- The image of a code point in a run, when the run holds it. -/
def CaseRun.image? (r : CaseRun) (n : Nat) : Option Nat :=
  if r.first ≤ n ∧ n ≤ r.last ∧ (n - r.first) % r.step = 0 then some (r.image + (n - r.first))
  else none

/-- The lowercase form of a character outside any context. -/
def lowerChar (c : Char) : List Char :=
  if c.toNat < 0x80 then [c.toLower]
  else if c = 'İ' then ['i', '\u0307']
  else [((lowercaseRuns.findSome? (·.image? c.toNat)).map Char.ofNat).getD c]

/-- The lowercase form of a text; `before` holds what precedes it, the nearest character first. -/
def lowerAfter (before : List Char) : List Char → List Char
  | [] => []
  | c :: rest =>
    (if c = 'Σ' then [if meetsCased before && !meetsCased rest then 'ς' else 'σ']
      else lowerChar c) ++ lowerAfter (c :: before) rest

/-- The lowercase form of a text. -/
def lowercase (s : String) : String := String.ofList (lowerAfter [] s.toList)

example : lowercase "ΟΔΥΣΣΕΥΣ Σ" = "οδυσσευς σ" := by decide +kernel

end Workbench.Text
