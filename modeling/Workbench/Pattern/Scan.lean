import Workbench.Pattern.Basic

/-!
# Finding a pattern in a text

A text is cut, from left to right, into the pieces that a pattern reads and the single characters
between them. At each place the preferred reading is taken; the next piece is looked for after it.
A reading of nothing counts as a piece too, except directly behind the piece before.

* `readAt_eq_some`: the piece read at a place is what the preferred reading takes there, and what
  follows it is the rest of the text.
* `flatMap_piece_cut`: the pieces put together give the text back.
-/

namespace Workbench.Pattern

/-- A piece of text that the pattern read, with what its groups read and the text after it. -/
structure Hit where
  text : List Char
  captures : List Capture
  after : List Char
  deriving DecidableEq

/-- What a group read last, the whole piece being group 0. -/
def Hit.group? (h : Hit) (n : Nat) : Option (List Char) :=
  if n = 0 then some h.text
  else (h.captures.find? (·.number == n)).map fun c => c.start.take c.length

/-- What a group read, or nothing when it took no part. -/
def Hit.groupText (h : Hit) (n : Nat) : List Char := (h.group? n).getD []

/-- The preferred reading that begins at a place. -/
def readAt (p : Pattern) (last : Option Char) (rest : List Char) : Option Hit :=
  (p.run ⟨0, last, rest, []⟩ some).map fun e => ⟨rest.take e.taken, e.captures, e.rest⟩

/-- A part of a text that was cut by a pattern. -/
inductive Piece where
  | gap (c : Char)
  | hit (h : Hit)
  deriving DecidableEq

/-- The text of a piece. -/
def Piece.text : Piece → List Char
  | gap c => [c]
  | hit h => h.text

/-- The reading in a piece. -/
def Piece.hit? : Piece → Option Hit
  | gap _ => none
  | hit h => some h

/-- Cuts the text at a place. The first `skip` characters belong to the piece before, and `behind`
says that this piece ends exactly where they do. -/
def cutFrom (p : Pattern) : Nat → Bool → Option Char → List Char → List Piece
  | _, behind, last, [] =>
    match p.readAt last [] with
    | none => []
    | some h => if behind then [] else [.hit h]
  | skip + 1, _, _, c :: rest => cutFrom p skip true (some c) rest
  | 0, behind, last, c :: rest =>
    match p.readAt last (c :: rest) with
    | none => .gap c :: cutFrom p 0 false (some c) rest
    | some h =>
      match h.text with
      | [] =>
        if behind then .gap c :: cutFrom p 0 false (some c) rest
        else .hit h :: .gap c :: cutFrom p 0 false (some c) rest
      | _ :: more => .hit h :: cutFrom p more.length true (some c) rest

/-- The text cut into what the pattern reads and what is left between. -/
def cut (p : Pattern) (s : List Char) : List Piece := p.cutFrom 0 false none s

/-- The readings in the text, from left to right. -/
def hits (p : Pattern) (s : String) : List Hit := (p.cut s.toList).filterMap Piece.hit?

/-- The first reading in the text. -/
def first? (p : Pattern) (s : String) : Option Hit := (p.hits s).head?

/-- The pattern reads some piece of the text. -/
def occursIn (p : Pattern) (s : String) : Bool := (p.first? s).isSome

/-- The text with each reading replaced and the rest as it is. -/
def replace (p : Pattern) (f : Hit → List Char) (s : String) : String :=
  String.ofList <| (p.cut s.toList).flatMap fun
    | .gap c => [c]
    | .hit h => f h

/-- The text with each reading left out. -/
def remove (p : Pattern) (s : String) : String := p.replace (fun _ => []) s

/-- What a group read, for each reading in which it took part. -/
def collect (p : Pattern) (n : Nat) (s : String) : List String :=
  (p.hits s).filterMap fun h => (h.group? n).map String.ofList

/-! ## The pieces give the text back -/

/-- The piece at a place is what the preferred reading takes there. -/
theorem readAt_eq_some {p : Pattern} {last : Option Char} {s : List Char} {h : Hit}
    (hr : p.readAt last s = some h) :
    ∃ e, (p.ends ⟨0, last, s, []⟩).head? = some e ∧ s = h.text ++ e.rest ∧
      h.after = e.rest ∧ h.captures = e.captures := by
  obtain ⟨e, he, rfl⟩ := Option.map_eq_some_iff.mp hr
  rw [run_eq_findSome?] at he
  cases hl : p.ends ⟨0, last, s, []⟩ with
  | nil => simp [hl] at he
  | cons e' l =>
    obtain rfl : e' = e := by simpa [hl] using he
    obtain ⟨w, ⟨hs, ht, -⟩, -⟩ := reads_of_mem_ends p (hl ▸ List.mem_cons_self : e' ∈ p.ends _)
    have hw : e'.taken = w.length := by simpa using ht
    refine ⟨e', rfl, ?_, rfl, rfl⟩
    rw [hw]
    simp only at hs
    rw [hs, List.take_left]

theorem text_of_readAt {p : Pattern} {last : Option Char} {s : List Char} {h : Hit}
    (hr : p.readAt last s = some h) : h.text <+: s := by
  obtain ⟨e, -, rfl⟩ := Option.map_eq_some_iff.mp hr
  exact List.take_prefix _ _

theorem flatMap_piece_cutFrom (p : Pattern) (s : List Char) :
    ∀ skip behind last, (p.cutFrom skip behind last s).flatMap Piece.text = s.drop skip := by
  induction s with
  | nil =>
    intro skip behind last
    rw [cutFrom]
    split
    · simp
    · rename_i h hr
      have ht : h.text = [] := List.prefix_nil.mp (text_of_readAt hr)
      cases behind <;> simp [Piece.text, ht]
  | cons c rest ih =>
    intro skip behind last
    cases skip with
    | succ skip => simp [cutFrom, ih]
    | zero =>
      rw [cutFrom]
      split
      · simp [Piece.text, ih]
      · rename_i h hr
        split
        · rename_i ht
          cases behind <;> simp [Piece.text, ih, ht]
        · rename_i d more ht
          obtain ⟨tail, htail⟩ := text_of_readAt hr
          rw [ht, List.cons_append] at htail
          obtain ⟨rfl, rfl⟩ := List.cons.inj htail
          simp [Piece.text, ih, ht]

/-- Cutting loses nothing and adds nothing. -/
theorem flatMap_piece_cut (p : Pattern) (s : List Char) :
    (p.cut s).flatMap Piece.text = s :=
  flatMap_piece_cutFrom p s 0 false none

end Workbench.Pattern
