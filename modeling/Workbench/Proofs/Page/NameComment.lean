import Workbench.Page.Document
import Workbench.Proofs.Markup.ScriptEnd

/-!
# The comments that name the files

Each classic script and each linked module stands under a comment with the name of its file. Such a
comment goes on up to the first line end, and a line end in the name ends it too early: what follows in
the name is run as a script (`not_forall_name_in_comment`). Four characters end a line in a script, not
the newline alone.

`name_in_comment_iff` is the exact condition. The comment holds the whole name, and what follows it is
what is meant to follow, exactly when no character of the name ends a line.
-/

namespace Workbench.Markup

open Pattern

variable {letters s t : List Char} {c : Char}

theorem beginsFolded_append_cons (hc : ∀ letter ∈ letters, foldsTo letter c = false) (s t : List Char) :
    beginsFolded letters (s ++ c :: t) = beginsFolded letters s := by
  induction letters generalizing s with
  | nil => cases s <;> rfl
  | cons letter letters ih =>
    obtain ⟨hletter, hletters⟩ := List.forall_mem_cons.mp hc
    cases s with
    | nil =>
      show (foldsTo letter c && beginsFolded letters t) = false
      rw [hletter, Bool.false_and]
    | cons d s => rw [List.cons_append, beginsFolded, ih hletters, beginsFolded]

/-- Texts between which a character stands that no script end holds are made harmless apart. -/
theorem backslashed_append_cons (hc : ∀ letter ∈ scriptEndMarker, foldsTo letter c = false)
    (s t : List Char) : backslashed (beginsFolded scriptEndMarker) (s ++ c :: t) =
      backslashed (beginsFolded scriptEndMarker) s ++
        c :: backslashed (beginsFolded scriptEndMarker) t := by
  induction s with
  | nil =>
    have hbegins : beginsFolded scriptEndMarker (c :: t) = false := beginsFolded_append_cons hc [] t
    simp [backslashed, hbegins]
  | cons d s ih =>
    have hbegins := beginsFolded_append_cons hc (d :: s) t
    rw [List.cons_append] at hbegins ⊢
    rw [backslashed, backslashed, hbegins, ih]
    split <;> rfl

/-- A backslash is all that is added. -/
theorem all_backslashed {ok : Char → Bool} (hok : ok '\\' = true) (begins : List Char → Bool)
    (s : List Char) : (backslashed begins s).all ok = s.all ok := by
  induction s with
  | nil => rfl
  | cons d s ih =>
    rw [backslashed]
    split
    · rw [List.all_cons, List.all_cons, List.all_cons, hok, Bool.true_and, ih]
    · rw [List.all_cons, List.all_cons, ih]

end Workbench.Markup

namespace Workbench.Script

variable {s t : List Char}

/-- The characters that end a line of a script, and a comment that goes on to the end of the line. -/
def isLineEnd (c : Char) : Bool := c == '\n' || c == '\r' || c == '\u2028' || c == '\u2029'

/-- The text before its first line end. -/
def firstLine (s : List Char) : List Char := s.takeWhile fun c => !isLineEnd c

/-- The text behind its first line end. -/
def behindFirstLine (s : List Char) : List Char := (s.dropWhile fun c => !isLineEnd c).tail

/-- No character of the name ends a line. -/
def OnOneLine (name : String) : Prop := (name.toList.all fun c => !isLineEnd c) = true

instance (name : String) : Decidable (OnOneLine name) :=
  inferInstanceAs (Decidable (_ = true))

/-- The comment that names a file, without the newline behind it. -/
def nameComment (name : String) : String := "// --- " ++ name ++ " ---"

/-- What stands before a newline is the first line exactly if no line ends in it. -/
theorem firstLine_append_newline_iff :
    firstLine (s ++ '\n' :: t) = s ↔ (s.all fun c => !isLineEnd c) = true := by
  constructor
  · intro h
    rw [← h]
    exact List.all_takeWhile
  · intro h
    rw [firstLine, List.takeWhile_append_of_pos (List.all_eq_true.mp h)]
    exact List.append_nil s

theorem behindFirstLine_append_newline (h : (s.all fun c => !isLineEnd c) = true) :
    behindFirstLine (s ++ '\n' :: t) = t := by
  rw [behindFirstLine, List.dropWhile_append_of_pos (List.all_eq_true.mp h)]
  rfl

theorem all_nameComment (name : String) :
    ((nameComment name).toList.all fun c => !isLineEnd c) = name.toList.all fun c => !isLineEnd c := by
  have hopen : ("// --- ".toList.all fun c => !isLineEnd c) = true := by decide
  have hclose : (" ---".toList.all fun c => !isLineEnd c) = true := by decide
  rw [nameComment, String.toList_append, String.toList_append, List.all_append, List.all_append, hopen,
    hclose, Bool.true_and, Bool.and_true]

/-- The first line of a text is the comment with a name exactly if no character of the name ends a
line. -/
theorem firstLine_nameComment_iff (name : String) :
    firstLine ((nameComment name).toList ++ '\n' :: t) = (nameComment name).toList ↔ OnOneLine name := by
  rw [firstLine_append_newline_iff, all_nameComment, OnOneLine]

theorem behindFirstLine_nameComment {name : String} (h : OnOneLine name) :
    behindFirstLine ((nameComment name).toList ++ '\n' :: t) = t :=
  behindFirstLine_append_newline ((all_nameComment name).trans h)

theorem toList_block (m : Source) : m.block.toList =
    (nameComment m.name).toList ++ '\n' :: (Text.trimEnd m.body ++ "\n\n").toList := by
  have hsplit : m.block = nameComment m.name ++ ("\n" ++ (Text.trimEnd m.body ++ "\n\n")) := by
    have hclose : " ---\n" = " ---" ++ "\n" := by decide
    rw [Source.block, nameComment, hclose]
    simp only [String.append_assoc]
  rw [hsplit, String.toList_append, String.toList_append]
  rfl

/-- From the comment of a module on, the linked script is the comment, the module and more. -/
theorem exists_script_eq (before : List Source) (m : Source) (after : List Source) : ∃ rest rest',
    (link (before ++ m :: after)).script = String.join (before.map Source.block) ++ rest ∧
      rest.toList = (nameComment m.name).toList ++
        '\n' :: ((Text.trimEnd m.body ++ "\n\n").toList ++ rest') := by
  let more := String.join (after.map Source.block) ++ globalBlock (link (before ++ m :: after)).names
  refine ⟨m.block ++ more, more.toList, ?_, ?_⟩
  · show String.join ((before ++ m :: after).map Source.block) ++ _ = _
    rw [List.map_append, List.map_cons, String.join_append, String.join_cons]
    simp only [String.append_assoc]
    rfl
  · rw [String.toList_append, toList_block, List.append_assoc, List.cons_append]

end Workbench.Script

namespace Workbench.Page

open Markup Script

/-- A name is made harmless in its comment as it is alone. -/
theorem apply_scriptEnd_nameComment (name : String) :
    (nameComment (scriptEnd.apply name)).toList =
      backslashed (beginsFolded scriptEndMarker) (nameComment name).toList := by
  have hblank : ∀ letter ∈ scriptEndMarker, Pattern.foldsTo letter ' ' = false :=
    List.forall_iff_forall_mem.mp (by decide)
  have hopen : ∀ c ∈ "// --- ".toList, c ≠ '<' := List.forall_iff_forall_mem.mp (by decide)
  have hclose : backslashed (beginsFolded scriptEndMarker) "---".toList = "---".toList := by decide
  have hsplit : " ---".toList = ' ' :: "---".toList := by decide
  rw [nameComment, nameComment, String.append_assoc, String.append_assoc, String.toList_append,
    String.toList_append, String.toList_append, String.toList_append, backslashed_append hopen, hsplit,
    backslashed_append_cons hblank, hclose, toList_apply_scriptEnd]

theorem exists_guardedScript_eq (name code : String) : ∃ rest, (guardedScript name code).toList =
    (nameComment name).toList ++ '\n' :: ("try \x7b".toList ++ '\n' :: rest) := by
  let more := Text.trimEnd code ++ ("\n\x7d catch (err) \x7b\n  console.error(" ++
    (Text.quoted ("Error in " ++ name ++ ":") ++ ", err);\n\x7d\n"))
  have hsplit : guardedScript name code =
      nameComment name ++ ("\n" ++ ("try \x7b" ++ ("\n" ++ more))) := by
    have hmiddle : " ---\ntry \x7b\n" = " ---" ++ ("\n" ++ ("try \x7b" ++ "\n")) := by decide
    rw [guardedScript, nameComment, hmiddle]
    simp only [more, String.append_assoc]
  refine ⟨more.toList, ?_⟩
  rw [hsplit, String.toList_append, String.toList_append, String.toList_append, String.toList_append]
  rfl

/-- A classic script is the comment, the line that opens the block and more. -/
theorem exists_classicBlock_eq (name code : String) : ∃ rest, (classicBlock name code).toList =
    (nameComment (scriptEnd.apply name)).toList ++ '\n' :: ("try \x7b".toList ++ '\n' :: rest) := by
  obtain ⟨rest, hrest⟩ := exists_guardedScript_eq name code
  have hnewline : ∀ letter ∈ scriptEndMarker, Pattern.foldsTo letter '\n' = false :=
    List.forall_iff_forall_mem.mp (by decide)
  have htry : backslashed (beginsFolded scriptEndMarker) "try \x7b".toList = "try \x7b".toList := by
    decide
  refine ⟨backslashed (beginsFolded scriptEndMarker) rest, ?_⟩
  rw [classicBlock, toList_apply_scriptEnd, hrest, backslashed_append_cons hnewline,
    backslashed_append_cons hnewline, htry, apply_scriptEnd_nameComment]

theorem onOneLine_apply_scriptEnd_iff (name : String) :
    OnOneLine (scriptEnd.apply name) ↔ OnOneLine name := by
  rw [OnOneLine, OnOneLine, toList_apply_scriptEnd, all_backslashed (by decide)]

/-- A script under the comment with its name begins with the whole comment as its first line, and goes
on as it is meant to, exactly when no character of the name ends a line. -/
theorem name_in_comment_iff (name : String) :
    (∀ code : String,
      (firstLine (classicBlock name code).toList = (nameComment (scriptEnd.apply name)).toList ∧
        firstLine (behindFirstLine (classicBlock name code).toList) = "try \x7b".toList) ↔
      OnOneLine name) ∧
    ∀ (before : List Source) (text : String) (after : List Source), ∃ rest,
      (link (before ++ ⟨name, text⟩ :: after)).script =
        String.join (before.map Source.block) ++ rest ∧
      ((firstLine rest.toList = (nameComment name).toList ∧
        (Text.trimEnd (Source.body ⟨name, text⟩) ++ "\n\n").toList <+: behindFirstLine rest.toList) ↔
      OnOneLine name) := by
  refine ⟨fun code => ?_, fun before text after => ?_⟩
  · obtain ⟨rest, hrest⟩ := exists_classicBlock_eq name code
    rw [hrest, firstLine_nameComment_iff, onOneLine_apply_scriptEnd_iff]
    refine and_iff_left_of_imp fun h => ?_
    rw [behindFirstLine_nameComment ((onOneLine_apply_scriptEnd_iff name).mpr h)]
    exact firstLine_append_newline_iff.mpr (by decide)
  · obtain ⟨rest, rest', hscript, hrest⟩ := exists_script_eq before ⟨name, text⟩ after
    refine ⟨rest, hscript, ?_⟩
    rw [hrest, firstLine_nameComment_iff]
    refine and_iff_left_of_imp fun h => ?_
    rw [behindFirstLine_nameComment h]
    exact List.prefix_append _ _

/-- A newline in the name of a classic script or of a module ends its comment within the name. -/
theorem not_forall_name_in_comment :
    (¬ ∀ name code : String,
      firstLine (classicBlock name code).toList = (nameComment (scriptEnd.apply name)).toList) ∧
    ¬ ∀ m : Source, firstLine (link [m]).script.toList = (nameComment m.name).toList := by
  have hsplit : ¬ OnOneLine "a.js\nalert(1)//" := by decide
  constructor
  · intro h
    obtain ⟨rest, hrest⟩ := exists_classicBlock_eq "a.js\nalert(1)//" "x()"
    have hfirst := h "a.js\nalert(1)//" "x()"
    rw [hrest, firstLine_nameComment_iff, onOneLine_apply_scriptEnd_iff] at hfirst
    exact hsplit hfirst
  · intro h
    obtain ⟨rest, rest', hscript, hrest⟩ := exists_script_eq [] ⟨"a.js\nalert(1)//", "x()"⟩ []
    have hfirst := h ⟨"a.js\nalert(1)//", "x()"⟩
    have hwhole : (link [⟨"a.js\nalert(1)//", "x()"⟩]).script = rest :=
      hscript.trans (String.empty_append (s := rest))
    rw [hwhole, hrest, firstLine_nameComment_iff] at hfirst
    exact hsplit hfirst

end Workbench.Page
