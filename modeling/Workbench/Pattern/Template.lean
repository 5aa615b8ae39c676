import Workbench.Pattern.Scan

/-!
# Templates and rules

A template is text with references to groups; a rule is a pattern with a template that replaces each
of its readings. In the written form of a template `$1` and `${1}` refer to group 1 and `$$` is a
dollar sign. A name runs over letters, digits and underscores, or up to the closing brace. Groups
have numbers only, so a name that is no number refers to nothing.
-/

namespace Workbench

/-- A part of a template. -/
inductive Template.Part where
  | text (s : String)
  | group (n : Nat)

/-- Text with references to groups. -/
abbrev Template := List Template.Part

namespace Template

/-- The text of a template for one reading; a group that took no part gives nothing. -/
def expand (t : Template) (h : Pattern.Hit) : List Char :=
  t.flatMap fun
    | .text s => s.toList
    | .group n => h.groupText n

/-- A character of a name outside braces. -/
def isNameChar (c : Char) : Bool := Text.isAsciiWord c

/-- The number that a name spells in decimal digits, with or without a plus sign before them. -/
def number? (name : List Char) : Option Nat :=
  let digits := match name with
    | '+' :: rest => rest
    | _ => name
  if digits.isEmpty || !digits.all Char.isDigit then none
  else some (digits.foldl (fun n c => n * 10 + (c.toNat - 48)) 0)

/-- The reference that a name makes. -/
def reference (name : List Char) : Template :=
  match number? name with
  | some n => [.group n]
  | none => []

/-- Reads the written form of a template. -/
def parseChars : List Char → Template
  | [] => []
  | '$' :: '$' :: rest => .text "$" :: parseChars rest
  | '$' :: '\x7b' :: rest =>
    match _h : rest.dropWhile (· != '\x7d') with
    | [] => .text "$" :: parseChars ('\x7b' :: rest)
    | _ :: after => reference (rest.takeWhile (· != '\x7d')) ++ parseChars after
  | '$' :: rest =>
    match rest.takeWhile isNameChar with
    | [] => .text "$" :: parseChars rest
    | name => reference name ++ parseChars (rest.dropWhile isNameChar)
  | c :: rest => .text (String.singleton c) :: parseChars rest
termination_by s => s.length
decreasing_by
  · simp only [List.length_cons]; omega
  · simp only [List.length_cons]; omega
  · have hle := (List.dropWhile_suffix (p := fun c => c != '\x7d') (l := rest)).length_le
    rw [_h] at hle
    simp only [List.length_cons] at hle ⊢
    omega
  · simp only [List.length_cons]; omega
  · have hle := (List.dropWhile_suffix (p := isNameChar) (l := rest)).length_le
    simp only [List.length_cons]
    omega
  · simp only [List.length_cons]; omega

/-- Reads the written form of a template. -/
def parse (s : String) : Template := parseChars s.toList

end Template

/-- A pattern and what replaces each of its readings. -/
structure Rule where
  pattern : Pattern
  template : Template

namespace Rule

/-- The rule that leaves out what the pattern reads. -/
def deleting (p : Pattern) : Rule := ⟨p, []⟩

/-- The text with every reading replaced. -/
def apply (r : Rule) (s : String) : String := r.pattern.replace r.template.expand s

/-- The pattern of the rule reads some piece of the text. -/
def occursIn (r : Rule) (s : String) : Bool := r.pattern.occursIn s

/-- What a group reads, for each reading in which it takes part. -/
def collect (r : Rule) (n : Nat) (s : String) : List String := r.pattern.collect n s

end Rule
end Workbench
