import Workbench.Proofs.Markup.ScriptReference
import Workbench.Proofs.Markup.UrlToken
import Workbench.Proofs.Pattern.First
import Workbench.Proofs.Script.Line

/-!
# Parts of a tag

What a tag with attributes is put together from: words in any letter case, blanks, quoted references,
and the other attributes that no rule asks for. Each part holds no angle bracket, so a tag ends where it
is closed. An attribute is looked for behind a blank (`opensAttribute`), and the parts of a tag do not
open one they do not stand for.
-/

namespace Workbench.Markup

open Pattern Script Text

variable {last : Option Char} {s w rest : List Char} {name word : String} {c : Char}

/-! ## Characters -/

/-- A character between the two brackets of a tag. -/
def isInside (c : Char) : Bool := c != '<' && c != '>'

/-- A spelling of a letter is a word character, beyond ASCII too. -/
theorem isWord_of_foldsTo {letter : Char} (hl : isLetter letter = true)
    (h : foldsTo letter c = true) : isWord c = true := by
  simp only [foldsTo, Bool.or_eq_true, Bool.and_eq_true, beq_iff_eq] at h
  rcases h with (rfl | ⟨-, rfl⟩) | ⟨-, rfl⟩
  · exact isWord_of_isLetter (isLetter_of_toLower hl)
  · decide +kernel
  · decide +kernel

theorem foldsTo_eq_false_of_not_isWord {letter : Char} (hl : isLetter letter = true)
    (hc : isWord c = false) : foldsTo letter c = false := by
  by_contra h
  exact Bool.false_ne_true (hc.symm.trans (isWord_of_foldsTo hl (by simpa using h)))

/-- A tag goes on at such a character. -/
theorem ne_of_isInside (h : isInside c = true) : (c != '>') = true := (Bool.and_eq_true _ _ ▸ h).2

theorem isInside_of_isWord (h : isWord c = true) : isInside c = true := by
  rw [isInside, Bool.and_eq_true, bne_iff_ne, bne_iff_ne]
  constructor <;> (rintro rfl; exact absurd h (by decide))

theorem isInside_of_isBlank (h : isBlank c = true) : isInside c = true := by
  rw [isInside, Bool.and_eq_true, bne_iff_ne, bne_iff_ne]
  constructor <;> (rintro rfl; exact absurd h (by decide))

theorem isInside_of_isQuote (h : isQuote c = true) : isInside c = true := by
  rcases isQuote_iff.mp h with rfl | rfl <;> rfl

theorem bracket_of_forall_isInside (h : ∀ c ∈ w, isInside c = true) : '<' ∉ w ∧ '>' ∉ w :=
  ⟨fun hm => absurd (h _ hm) (by decide), fun hm => absurd (h _ hm) (by decide)⟩

/-! ## Words -/

/-- A word in any letter case. -/
structure Spelling (word : String) where
  chars : List Char
  folds : List.Forall₂ (fun letter c => foldsTo letter c = true) word.toList chars

/-- The word as it is. -/
def Spelling.plain (word : String) (h : word.toList.all (fun c => foldsTo c c) = true) : Spelling word :=
  ⟨word.toList, List.forall₂_same.mpr (List.all_eq_true.mp h)⟩

theorem Spelling.isWord (x : Spelling word) (hw : word.toList.all isLetter = true) :
    ∀ c ∈ x.chars, isWord c = true := by
  intro c hc
  obtain ⟨letter, hl, hfold⟩ := exists_letter_of_mem x.folds hc
  exact isWord_of_foldsTo (List.all_eq_true.mp hw letter hl) hfold

theorem Spelling.isInside (x : Spelling word) (hw : word.toList.all isLetter = true) :
    ∀ c ∈ x.chars, isInside c = true := fun c hc => isInside_of_isWord (x.isWord hw c hc)

theorem Spelling.isBlank_eq_false (x : Spelling word) (hw : word.toList.all isLetter = true) :
    ∀ c ∈ x.chars, isBlank c = false := fun c hc => isBlank_eq_false_of_isWord (x.isWord hw c hc)

/-- A word does not begin with another letter than its own. -/
theorem Spelling.stops {letter other : Char} {letters : List Char} (x : Spelling word)
    (hword : word.toList = letter :: letters) (hl : letter.toNat < 128 ∧ other.toNat < 128)
    (hne : letter ≠ other) (s : List Char) : Stops (foldsTo other) (x.chars ++ s) := by
  obtain ⟨w, hw⟩ := x
  rw [hword] at hw
  obtain _ | ⟨hc, -⟩ := hw
  refine stops_cons.mpr ?_
  by_contra hfold
  exact hne (eq_of_foldsTo_of_foldsTo hc (by simpa using hfold) hl.1 hl.2)

abbrev Blanks := Run Text.isBlank

theorem isInside_blanks (x : Blanks) : ∀ c ∈ x.chars, isInside c = true := fun c hc =>
  isInside_of_isBlank (x.all_ok c hc)

/-! ## Where attributes begin -/

/-- A blank stands here and the name behind it. -/
def opensAttribute (name : String) : List Char → Bool
  | [] => false
  | c :: rest => isBlank c && beginsFolded name.toList rest

theorem beginsWhere_attribute (name : String) (p : Pattern) :
    (seq (char isBlank) (seq (anyCase name) p)).BeginsWhere (opensAttribute name) := by
  rintro last _ rest ⟨_, _, rfl, ⟨c, hc, rfl⟩, t, v, rfl, ht, -⟩
  show (isBlank c && beginsFolded name.toList (t ++ v ++ rest)) = true
  rw [hc, Bool.true_and, beginsFolded_iff]
  exact ⟨t, v ++ rest, List.append_assoc .., (reads_anyCase name).mp ht⟩

theorem beginsWhere_anyCase (word : String) (p : Pattern) :
    (seq (anyCase word) p).BeginsWhere (beginsFolded word.toList) := by
  rintro last _ rest ⟨t, v, rfl, ht, -⟩
  exact beginsFolded_iff.mpr ⟨t, v ++ rest, List.append_assoc .., (reads_anyCase word).mp ht⟩

theorem beginsFolded_eq_false {letter : Char} {letters : List Char} (h : Stops (foldsTo letter) s) :
    beginsFolded (letter :: letters) s = false := by
  cases s with
  | nil => rfl
  | cons c s =>
    rw [beginsFolded, stops_cons.mp h]
    rfl

/-- No attribute begins where no blank stands. -/
theorem nowhere_opensAttribute (h : ∀ c ∈ w, isBlank c = false) (name : String) (s : List Char) :
    Nowhere (opensAttribute name) w s := .of_forall fun c hc _ => by
  rw [opensAttribute, h c hc, Bool.false_and]

/-- No attribute begins in blanks before a text that does not begin with its name. -/
theorem nowhere_opensAttribute_blanks_of {letter : Char} {letters : List Char}
    (hname : name.toList = letter :: letters) (hl : isLetter letter = true) (x : Blanks)
    (hs : beginsFolded name.toList s = false) : Nowhere (opensAttribute name) x.chars s := by
  obtain ⟨w, hw⟩ := x
  induction w with
  | nil => exact .nil _ _
  | cons c w ih =>
    rw [List.forall_mem_cons] at hw
    refine .cons ?_ (ih hw.2)
    suffices beginsFolded name.toList (w ++ s) = false by
      rw [opensAttribute, this, Bool.and_false]
    cases w with
    | nil => exact hs
    | cons d w =>
      have hword := isWord_eq_false_of_isBlank (hw.2 d List.mem_cons_self)
      rw [hname]
      exact beginsFolded_eq_false (stops_cons.mpr (foldsTo_eq_false_of_not_isWord hl hword))

/-- No attribute begins in blanks before a character that does not begin its name. -/
theorem nowhere_opensAttribute_blanks {letter : Char} {letters : List Char}
    (hname : name.toList = letter :: letters) (hl : isLetter letter = true) (x : Blanks)
    (hs : Stops (foldsTo letter) s) : Nowhere (opensAttribute name) x.chars s :=
  nowhere_opensAttribute_blanks_of hname hl x (hname ▸ beginsFolded_eq_false hs)

/-- Attributes of a tag besides those that the rules ask for. -/
structure Others where
  chars : List Char
  inside : chars.all isInside = true
  unnamed : ["src", "href", "rel"].all (fun name =>
    !(anyCase name).occursIn (String.ofList chars)) = true

namespace Others

variable (x : Others)

theorem isInside_of_mem (hc : c ∈ x.chars) : isInside c = true := List.all_eq_true.mp x.inside c hc

/-- None of the names begins in other attributes that no word character follows. -/
theorem nowhere (hname : name ∈ ["src", "href", "rel"]) (hs : Stops isWord s) :
    Nowhere (opensAttribute name) x.chars s := by
  intro a b hab hb
  obtain ⟨c, b, rfl⟩ := List.exists_cons_of_ne_nil hb
  rw [List.cons_append, opensAttribute]
  by_contra h
  simp only [Bool.not_eq_false, Bool.and_eq_true] at h
  obtain ⟨t, rest, hsplit, ht⟩ := beginsFolded_iff.mp h.2
  have hletters : ∀ name ∈ ["src", "href", "rel"], name.toList.all isLetter = true := by decide
  have hword : ∀ d ∈ t, isWord d = true := Spelling.isWord ⟨t, ht⟩ (hletters name hname)
  obtain ⟨y, rfl⟩ : t <+: b := prefix_of_stops ⟨rest, hsplit.symm⟩ hword hs
  have hocc : (anyCase name).occursIn (String.ofList x.chars) = true := by
    have htakes : ∀ name ∈ ["src", "href", "rel"], (anyCase name).takesSome = true := by decide
    refine (occursIn_iff (htakes name hname)).mpr ⟨a ++ [c], t, y, ?_, (reads_anyCase name).mpr ht⟩
    rw [String.toList_ofList, hab, List.append_assoc]
    rfl
  have hnone := List.all_eq_true.mp x.unnamed name hname
  rw [hocc] at hnone
  exact absurd hnone (by decide)

end Others

/-! ## Attributes with a value -/

/-- An attribute up to its value: a blank, the name and the equals sign, with blanks around it. -/
structure AttributeHead (name : String) where
  blank : Char
  blank_ok : isBlank blank = true
  name : Spelling name
  before : Blanks
  after : Blanks

namespace AttributeHead

variable (x : AttributeHead name)

/-- The equals sign with the blanks around it. -/
def equalsSign : List Char := x.before.chars ++ '=' :: x.after.chars

def chars : List Char := x.blank :: (x.name.chars ++ x.equalsSign)

theorem isInside_of_mem (hname : name.toList.all isLetter = true) (hc : c ∈ x.chars) :
    isInside c = true := by
  simp only [chars, equalsSign, List.mem_cons, List.mem_append] at hc
  rcases hc with rfl | hc | hc | rfl | hc
  · exact isInside_of_isBlank x.blank_ok
  · exact x.name.isInside hname c hc
  · exact isInside_blanks x.before c hc
  · rfl
  · exact isInside_blanks x.after c hc

theorem prefers_equals (hs : Stops isBlank rest) : equals.Prefers last x.equalsSign rest [] :=
  .andThen (.many x.before.all_ok (stops_cons.mpr (by decide))) <|
    .andThen (u := ['=']) (.char rfl) (.many x.after.all_ok hs)

theorem reads_equals : equals.Reads last x.equalsSign rest :=
  ⟨x.before.chars, _, rfl, x.before.all_ok, ['='], _, rfl, ⟨'=', rfl, rfl⟩, x.after.all_ok⟩

/-- No attribute begins behind the first blank if the value does not begin with its name. -/
theorem nowhere_tail {other : String} {letter : Char} {letters : List Char}
    (hother : other.toList = letter :: letters) (hl : isLetter letter = true)
    (hname : name.toList.all isLetter = true) (hs : beginsFolded other.toList rest = false) :
    Nowhere (opensAttribute other) (x.name.chars ++ x.equalsSign) rest := by
  have hblank := x.name.isBlank_eq_false hname
  have hequals : foldsTo letter '=' = false := foldsTo_eq_false_of_not_isWord hl (by decide)
  refine .append (nowhere_opensAttribute hblank other _) (.append ?_ (.cons rfl ?_))
  · exact nowhere_opensAttribute_blanks hother hl x.before (stops_cons.mpr hequals)
  · exact nowhere_opensAttribute_blanks_of hother hl x.after hs

/-- No other attribute begins here if neither the name nor the value begins like its name. -/
theorem nowhere {other : String} {letter : Char} {letters : List Char}
    (hother : other.toList = letter :: letters) (hl : isLetter letter = true)
    (hname : name.toList.all isLetter = true) (hfirst : ∀ s, Stops (foldsTo letter) (x.name.chars ++ s))
    (hs : Stops (foldsTo letter) rest) : Nowhere (opensAttribute other) x.chars rest := by
  refine .cons ?_ (x.nowhere_tail hother hl hname (hother ▸ beginsFolded_eq_false hs))
  rw [opensAttribute, hother, List.append_assoc, beginsFolded_eq_false (hfirst _), Bool.and_false]

/-- A text that no blank begins is told apart behind an attribute up to its value. -/
theorem eq_of_append_eq {x y : AttributeHead name} {u v : List Char} (hu : Stops isBlank u)
    (hv : Stops isBlank v) (h : x.chars ++ u = y.chars ++ v) : u = v := by
  have hequals {w : List Char} : Stops isBlank ('=' :: w) := stops_cons.mpr (by decide)
  simp only [chars, equalsSign, List.cons_append, List.append_assoc, List.cons.injEq] at h
  have hlength : x.name.chars.length = y.name.chars.length :=
    x.name.folds.length_eq.symm.trans y.name.folds.length_eq
  obtain ⟨-, hbefore⟩ := List.append_inj h.2 hlength
  have hsign := congrArg (List.dropWhile isBlank) hbefore
  rw [dropWhile_run x.before.all_ok hequals, dropWhile_run y.before.all_ok hequals] at hsign
  have hvalue := congrArg (List.dropWhile isBlank) (List.cons.inj hsign).2
  rwa [dropWhile_run x.after.all_ok hu, dropWhile_run y.after.all_ok hv] at hvalue

end AttributeHead

/-- A reference in quotes. It is not empty and holds neither a quote nor an angle bracket. -/
structure Reference where
  quote : Char
  quote_ok : isQuote quote = true
  value : Run fun c => !isQuote c && isInside c
  value_ne : value.chars ≠ []

namespace Reference

variable (x : Reference)

/-- The reference without its quotes. -/
def text : String := String.ofList x.value.chars

def chars : List Char := x.quote :: (x.value.chars ++ [x.quote])

theorem isInside_of_mem (hc : c ∈ x.chars) : isInside c = true := by
  simp only [chars, List.mem_cons, List.mem_append, List.not_mem_nil, or_false] at hc
  rcases hc with rfl | hc | rfl
  · exact isInside_of_isQuote x.quote_ok
  · exact (Bool.and_eq_true _ _ ▸ x.value.all_ok c hc).2
  · exact isInside_of_isQuote x.quote_ok

theorem not_isQuote_of_mem : ∀ c ∈ x.value.chars, (!isQuote c) = true := fun c hc =>
  (Bool.and_eq_true _ _ ▸ x.value.all_ok c hc).1

theorem stops_isBlank (s : List Char) : Stops isBlank (x.chars ++ s) :=
  stops_cons.mpr (isBlank_eq_false_of_isQuote x.quote_ok)

/-- The reference is read up to its closing quote. -/
theorem prefers : (quotedReference 1).Prefers last x.chars rest
    [⟨1, x.value.chars ++ x.quote :: rest, x.value.chars.length⟩] := by
  refine prefers_quotedReference x.quote_ok (fun d hd => ?_) x.value_ne x.quote_ok
  simpa using x.not_isQuote_of_mem d hd

end Reference

end Workbench.Markup
