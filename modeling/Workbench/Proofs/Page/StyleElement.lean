import Workbench.Proofs.Lists
import Workbench.Proofs.Page.DataUrl
import Workbench.Proofs.Page.Rearranged
import Workbench.Proofs.Page.ScriptElement
import Workbench.Proofs.Pattern.Fence

/-!
# The style element and the texts inside it

Style sheets are written as they are: no rule makes a `</style` in them harmless, as `scriptEnd`
does for scripts. So a sheet can end the element, and what follows becomes markup
(`style_element_ended_by_sheet`).

A `url(...)` that names an asset is replaced, and what is written for it holds a closing tag only
inside the base64 text of the asset (`occurrences_dataUrl`), never across its ends. This gives the
exact condition `style_element_closed_iff`: the element stays closed exactly when every `</style` of
a sheet stands inside a `url(...)` that is replaced, and no asset that replaces one is stored as
base64 with a `</style` in it. No true base64 text has one (`Base64.not_mem_encode`).
-/

namespace Workbench.Page

open Markup Text

/-- The beginning of a closing `style` tag, in lower case. -/
def styleEndMarker : List Char := ['<', '/', 's', 't', 'y', 'l', 'e']

theorem newline_not_mem_styleEndMarker : '\n' ∉ styleEndMarker := by decide

/-! ## Replaced references -/

/-- The asset that a reference in the file at `current` names. -/
def assetOf? (table : PathTable) (current reference : String) : Option PathTable.Entry :=
  if isExternal reference then none
  else assetAt? table (Paths.resolve current (withoutQuery reference))

theorem assetUrl?_eq_map (table : PathTable) (current reference : String) :
    assetUrl? table current reference =
      (assetOf? table current reference).map PathTable.Entry.dataUrl := by
  rw [assetUrl?_eq, assetOf?]
  split <;> rfl

/-- The asset that replaces a `url(...)`. -/
def assetIn? (table : PathTable) (current : String) (h : Pattern.Hit) : Option PathTable.Entry :=
  assetOf? table current (trim (String.ofList (h.groupText 2)))

/-- Each `url(...)` of a style sheet that is replaced, with the asset that replaces it. -/
def replacements (table : PathTable) (current css : String) :
    List (Pattern.Hit × PathTable.Entry) :=
  paired (assetIn? table current) (urlToken.pattern.hits css)

theorem styleReading_of_some {table : PathTable} {current : String} {h : Pattern.Hit}
    {e : PathTable.Entry} (he : assetIn? table current h = some e) :
    styleReading table current h = ("url(\"" ++ e.dataUrl ++ "\")").toList := by
  unfold styleReading assetIn? at *
  simp only [assetUrl?_eq_map, he, Option.map_some]

theorem styleReading_of_none {table : PathTable} {current : String} {h : Pattern.Hit}
    (he : assetIn? table current h = none) : styleReading table current h = h.text := by
  unfold styleReading assetIn? at *
  simp only [assetUrl?_eq_map, he, Option.map_none]

/-! ## Occurrences in a style sheet -/

theorem exists_dataUrl_eq (e : PathTable.Entry) : ∃ w, '<' ∉ w ∧
    ("url(\"" ++ e.dataUrl ++ "\")").toList = w ++ [','] ++ (e.base64.toList ++ ['"', ')']) := by
  refine ⟨"url(\"".toList ++ (urlHead e).toList, ?_, ?_⟩
  · rw [List.mem_append, not_or]
    exact ⟨by decide, fun h => absurd (mem_urlHead h) (by decide)⟩
  · rw [String.toList_append, String.toList_append, toList_dataUrl]
    simp only [List.append_assoc, List.cons_append]
    rfl

/-- What is written for a replaced reference holds the marker only in the base64 text. -/
theorem occurrences_dataUrl (e : PathTable.Entry) :
    occurrences styleEndMarker ("url(\"" ++ e.dataUrl ++ "\")").toList =
      occurrences styleEndMarker e.base64.toList := by
  obtain ⟨w, hw, he⟩ := exists_dataUrl_eq e
  have hlt : '<' ∉ w ++ [','] := by simpa using hw
  have hcomma : Apart styleEndMarker (w ++ [',']) (e.base64.toList ++ ['"', ')']) := by
    refine .inl fun c hc => ?_
    rw [List.getLast?_append, List.getLast?_singleton, Option.some_or] at hc
    obtain rfl := Option.some.inj hc
    decide
  have hquote : Apart styleEndMarker e.base64.toList ['"', ')'] := by
    refine .inr fun c hc => ?_
    obtain rfl := Option.some.inj hc
    decide
  have hend : occurrences styleEndMarker ['"', ')'] = 0 := rfl
  rw [he, occurrences_append hcomma, occurrences_append hquote, hend, styleEndMarker,
    occurrences_of_not_mem (by decide) hlt, Nat.zero_add, Nat.add_zero]

theorem fenced_url {c : Char} (hc : c.toLower = 'u') (w : List Char) :
    Fenced styleEndMarker (c :: (w ++ [')'])) := by
  refine ⟨c, ')', rfl, ?_, ?_, by decide⟩
  · rw [hc]
    decide
  · rw [← List.cons_append, List.getLast?_append, List.getLast?_singleton, Option.some_or]

/-- A `url(...)` begins with its `u`, in either case, and ends with its closing bracket. -/
theorem exists_text_eq {s : String} {h : Pattern.Hit} (hm : h ∈ urlToken.pattern.hits s) :
    ∃ c w, c.toLower = 'u' ∧ h.text = c :: (w ++ [')']) := by
  obtain ⟨last, rest, hread⟩ := Pattern.reads_of_mem_hits (p := urlToken.pattern) rfl hm
  obtain ⟨u, _, ht, hu, v₁, _, rfl, -, v₂, _, rfl, -, v₃, _, rfl, -, v₄, _, rfl, -, v₅, _, rfl, -,
    d, hd, rfl⟩ := hread
  have hu : List.Forall₂ (fun letter c => Pattern.foldsTo letter c = true) ['u', 'r', 'l', '('] u :=
    (Pattern.reads_anyCase "url(").mp hu
  obtain _ | @⟨_, c, _, u, hc, -⟩ := hu
  obtain rfl := eq_of_beq hd
  refine ⟨c, u ++ v₁ ++ v₂ ++ v₃ ++ v₄ ++ v₅, by simpa [Pattern.foldsTo] using hc, ht.trans ?_⟩
  simp only [List.cons_append, List.append_assoc]

theorem fenced_text {s : String} {h : Pattern.Hit} (hm : h ∈ urlToken.pattern.hits s) :
    Fenced styleEndMarker h.text := by
  obtain ⟨c, w, hc, ht⟩ := exists_text_eq hm
  exact ht ▸ fenced_url hc w

theorem fenced_styleReading (table : PathTable) (current : String) {s : String} {h : Pattern.Hit}
    (hm : h ∈ urlToken.pattern.hits s) : Fenced styleEndMarker (styleReading table current h) := by
  cases he : assetIn? table current h with
  | none =>
    rw [styleReading_of_none he]
    exact fenced_text hm
  | some e =>
    have ht : ("url(\"" ++ e.dataUrl ++ "\")").toList =
        'u' :: ("rl(\"".toList ++ e.dataUrl.toList ++ ['"'] ++ [')']) := by
      simp
    rw [styleReading_of_some he, ht]
    exact fenced_url (by decide) _

/-! ## Counting -/

/-- How many closing tags stand in the references of a sheet that are replaced. -/
def replacedTags (table : PathTable) (current css : String) : Nat :=
  ((replacements table current css).map fun r => occurrences styleEndMarker r.1.text).sum

/-- How many closing tags stand in the base64 texts that are written for them. -/
def writtenTags (table : PathTable) (current css : String) : Nat :=
  ((replacements table current css).map fun r =>
    occurrences styleEndMarker r.2.base64.toList).sum

theorem occurrences_inlineStyle (table : PathTable) (current css : String) :
    occurrences styleEndMarker (inlineStyle table current css).toList +
        replacedTags table current css =
      occurrences styleEndMarker css.toList + writtenTags table current css ∧
    replacedTags table current css ≤ occurrences styleEndMarker css.toList := by
  obtain ⟨n, hn⟩ := Pattern.exists_occurrences_replace styleEndMarker urlToken.pattern css
  have hw := hn (styleReading table current) fun h hm => fenced_styleReading table current hm
  have ht := hn Pattern.Hit.text fun h hm => fenced_text hm
  rw [Pattern.replace_text] at ht
  have hsum := sum_add_sum_paired (g := assetIn? table current)
    (a := fun h => occurrences styleEndMarker (styleReading table current h))
    (b := fun h => occurrences styleEndMarker h.text)
    (c := fun e => occurrences styleEndMarker e.base64.toList)
    (fun h he => by rw [styleReading_of_none he])
    (fun h e he => by rw [styleReading_of_some he, occurrences_dataUrl])
    (urlToken.pattern.hits css)
  have hle := sum_paired_le (g := assetIn? table current)
    (b := fun h => occurrences styleEndMarker h.text) (urlToken.pattern.hits css)
  rw [inlineStyle, hw, ht, Nat.add_assoc, Nat.add_assoc]
  exact ⟨congrArg (n + ·) hsum, Nat.le_add_left_of_le hle⟩

/-- The closing tags that a sheet brings into the element: those of its own text that are not
replaced, and those of the base64 texts. -/
theorem occurrences_inlineStyle_eq_zero_iff (table : PathTable) (current css : String) :
    occurrences styleEndMarker (inlineStyle table current css).toList = 0 ↔
      occurrences styleEndMarker css.toList = replacedTags table current css ∧
        writtenTags table current css = 0 := by
  obtain ⟨heq, hle⟩ := occurrences_inlineStyle table current css
  omega

theorem occurrences_base64_text {e : PathTable.Entry} {s : String} (h : e.content = .text s) :
    occurrences styleEndMarker e.base64.toList = 0 := by
  have hlt : '<' ∉ (Base64.encodeText s).toList :=
    Base64.not_mem_encode (by decide) (by decide) _
  rw [PathTable.Entry.base64, h]
  exact occurrences_of_not_mem (by decide) hlt

/-- Only an asset that is stored as base64 can bring a closing tag with it. -/
theorem writtenTags_eq_zero_iff (table : PathTable) (current css : String) :
    writtenTags table current css = 0 ↔
      ∀ r ∈ replacements table current css, ∀ base64, r.2.content = .payload base64 →
        occurrences styleEndMarker base64.toList = 0 := by
  rw [writtenTags, List.sum_eq_zero_iff_forall_eq_nat, List.forall_mem_map]
  refine forall₂_congr fun r _ => ⟨fun h base64 hc => ?_, fun h => ?_⟩
  · rwa [PathTable.Entry.base64, hc] at h
  · cases hc : r.2.content with
    | text s => exact occurrences_base64_text hc
    | payload base64 =>
      rw [PathTable.Entry.base64, hc]
      exact h base64 hc

/-! ## The element in the page -/

/-- What the style element holds between its tags. -/
def styleText (files : List File) : String :=
  String.join ((filesOf .stylesheet files).map (styleBlock (PathTable.ofFiles files)))

theorem styleSection_ne_empty {styles : String} (h : (trim styles).isEmpty = false) :
    styleSection styles ≠ "" := by
  rw [styleSection, h, if_neg Bool.false_ne_true]
  intro he
  exact absurd (String.append_eq_empty_iff.mp he).2 (by decide)

theorem occurrences_styleBlock (table : PathTable) (f : File) :
    occurrences styleEndMarker (styleBlock table f).toList =
      occurrences styleEndMarker (inlineStyle table f.name f.text).toList := by
  have hn : occurrences styleEndMarker ['\n'] = 0 := rfl
  rw [styleBlock, occurrences_append_newline newline_not_mem_styleEndMarker, hn, Nat.add_zero]

theorem endsLine_of_mem_styleBlocks (table : PathTable) (files : List File) :
    ∀ s ∈ files.map (styleBlock table), EndsLine s := by
  intro s hs
  obtain ⟨f, -, rfl⟩ := List.mem_map.mp hs
  exact .append _ (endsLine_ofList (by decide))

theorem occurrences_styleText (files : List File) :
    occurrences styleEndMarker (styleText files).toList =
      ((filesOf .stylesheet files).map fun f => occurrences styleEndMarker
        (inlineStyle (PathTable.ofFiles files) f.name f.text).toList).sum := by
  rw [styleText, occurrences_join newline_not_mem_styleEndMarker
    (endsLine_of_mem_styleBlocks _ _), List.map_map]
  simp only [Function.comp_def, occurrences_styleBlock]

theorem occurrences_styleText_append (files : List File) (t : String) :
    occurrences styleEndMarker (styleText files ++ t).toList =
      occurrences styleEndMarker (styleText files).toList +
        occurrences styleEndMarker t.toList := by
  have hl := endsLine_of_mem_styleBlocks (PathTable.ofFiles files) (filesOf .stylesheet files)
  rw [styleText, occurrences_join_append newline_not_mem_styleEndMarker hl,
    occurrences_join newline_not_mem_styleEndMarker hl]

theorem styleText_closed_iff (files : List File) :
    occurrences styleEndMarker (styleText files).toList = 0 ↔
      ∀ f ∈ filesOf .stylesheet files,
        occurrences styleEndMarker f.text.toList =
            replacedTags (PathTable.ofFiles files) f.name f.text ∧
          ∀ r ∈ replacements (PathTable.ofFiles files) f.name f.text, ∀ base64,
            r.2.content = .payload base64 → occurrences styleEndMarker base64.toList = 0 := by
  rw [occurrences_styleText, List.sum_eq_zero_iff_forall_eq_nat, List.forall_mem_map]
  refine forall₂_congr fun f _ => ?_
  rw [occurrences_inlineStyle_eq_zero_iff, writtenTags_eq_zero_iff]

variable {files : List File}

/-- The page of style sheets and assets is its frame, the console script and the style element. -/
theorem ofFiles_styles (hr : ∀ f ∈ files, f.role = .stylesheet ∨ f.role = .asset)
    (he : styleSection (styleText files) ≠ "") :
    ofFiles files = opening ++ (Console.instrument ++ ("<style>\n" ++ (styleText files ++
      ("</style>\n" ++ (headToBody ++ closing))))) := by
  have hn (role : Role) (hs : role ≠ .stylesheet) (ha : role ≠ .asset) : filesOf role files = [] :=
    List.filter_eq_nil_iff.mpr fun f hf => by
      rcases hr f hf with h | h <;> simp [h, hs.symm, ha.symm]
  have hs : styleSection (styleText files) = "<style>\n" ++ styleText files ++ "</style>\n" := by
    unfold styleSection at he ⊢
    split at he
    · exact absurd rfl he
    · rename_i h
      rw [if_neg h]
  have hm : moduleSection (Script.link []) = "" := by decide
  have hc : classicSection "" = "" := by decide
  have ho : ofFiles files = opening ++ Console.instrument ++ styleSection (styleText files)
    ++ headToBody ++ "" ++ moduleSection (Script.link []) ++ classicSection "" ++ closing := by
    unfold ofFiles
    rw [hn .markup (by decide) (by decide), hn .moduleScript (by decide) (by decide),
      hn .classicScript (by decide) (by decide)]
    rfl
  rw [ho, hs, hm, hc]
  simp only [String.append_assoc, String.append_empty]

theorem occurrences_ofFiles_styles (hr : ∀ f ∈ files, f.role = .stylesheet ∨ f.role = .asset)
    (he : styleSection (styleText files) ≠ "") :
    occurrences styleEndMarker (ofFiles files).toList =
      1 + occurrences styleEndMarker (styleText files).toList := by
  have happ {s t : String} := occurrences_endsLine_append (s := s) (t := t)
    newline_not_mem_styleEndMarker
  have hs : EndsLine "<style>\n" := endsLine_ofList (by decide)
  have hc : EndsLine "</style>\n" := endsLine_ofList (by decide)
  have ho : occurrences styleEndMarker opening.toList = 0 :=
    occurrences_opening_eq_zero newline_not_mem_styleEndMarker
      (occurrences_ofList (by decide)) (occurrences_ofList (by decide))
      (by decide)
  have hn : occurrences styleEndMarker Console.instrument.toList = 0 := by
    rw [styleEndMarker, Console.occurrences_instrument (by decide) (by decide)]
    exact congrArg₂ (· + ·) (occurrences_ofList (n := 0) (by decide))
      (occurrences_ofList (n := 0) (by decide))
  have h₁ : occurrences styleEndMarker "<style>\n".toList = 0 := occurrences_ofList (by decide)
  have h₂ : occurrences styleEndMarker "</style>\n".toList = 1 := occurrences_ofList (by decide)
  have h₃ : occurrences styleEndMarker headToBody.toList = 0 := occurrences_ofList (by decide)
  have h₄ : occurrences styleEndMarker closing.toList = 0 := occurrences_ofList (by decide)
  rw [ofFiles_styles hr he, occurrences_beginning_append newline_not_mem_styleEndMarker, happ hs,
    occurrences_styleText_append, happ hc, happ endsLine_headToBody, ho, hn, h₁, h₂, h₃, h₄]
  omega

/-- A page of style sheets and assets with a style element holds the closing tag of this element and
those that the text in it holds. There are none of these exactly when every `</style` of a sheet
stands in a reference that an asset replaces, and no such asset is stored as base64 with a `</style`
in it: nothing else makes a closing tag of a sheet harmless, and nothing else brings one in. -/
theorem style_element_closed_iff (files : List File)
    (hr : ∀ f ∈ files, f.role = .stylesheet ∨ f.role = .asset)
    (he : styleSection (styleText files) ≠ "") :
    ofFiles files = opening ++ (Console.instrument ++ ("<style>\n" ++ (styleText files ++
      ("</style>\n" ++ (headToBody ++ closing))))) ∧
    occurrences styleEndMarker (ofFiles files).toList =
      1 + occurrences styleEndMarker (styleText files).toList ∧
    (occurrences styleEndMarker (styleText files).toList = 0 ↔
      ∀ f ∈ filesOf .stylesheet files,
        occurrences styleEndMarker f.text.toList =
            replacedTags (PathTable.ofFiles files) f.name f.text ∧
          ∀ r ∈ replacements (PathTable.ofFiles files) f.name f.text, ∀ base64,
            r.2.content = .payload base64 → occurrences styleEndMarker base64.toList = 0) :=
  ⟨ofFiles_styles hr he, occurrences_ofFiles_styles hr he, styleText_closed_iff files⟩

/-- A sheet with a closing tag in the query of a reference to an image, and the image. -/
def queriedImage : List File := [
  .new 0 "a.css" .css (.text "p\x7bmask:url(a.png?</style>)\x7d"),
  .new 1 "a.png" .image (.payload "AAAA")]

theorem style_element_closed_iff_queriedImage :
    (∀ f ∈ queriedImage, f.role = .stylesheet ∨ f.role = .asset) ∧
    styleSection (styleText queriedImage) ≠ "" ∧
    occurrences styleEndMarker (ofFiles queriedImage).toList = 1 := by
  have hr : ∀ f ∈ queriedImage, f.role = .stylesheet ∨ f.role = .asset := by decide
  have he : styleSection (styleText queriedImage) ≠ "" :=
    styleSection_ne_empty (by decide)
  obtain ⟨-, hpage, hclosed⟩ := style_element_closed_iff queriedImage hr he
  refine ⟨hr, he, ?_⟩
  rw [hpage, hclosed.mpr]
  have hf : filesOf .stylesheet queriedImage =
      [.new 0 "a.css" .css (.text "p\x7bmask:url(a.png?</style>)\x7d")] := rfl
  rw [hf, List.forall_mem_singleton, ← writtenTags_eq_zero_iff]
  decide

/-- A sheet that ends its element and goes on as a script. -/
def endingSheet : File :=
  .new 0 "a.css" .css (.text "p\x7b\x7d</style><script>alert(1)</script>")

/-- A page of style sheets can hold more closing tags than its own one. -/
theorem style_element_ended_by_sheet :
    ¬ ∀ files : List File, (∀ f ∈ files, f.role = .stylesheet ∨ f.role = .asset) →
      styleSection (styleText files) ≠ "" →
        occurrences styleEndMarker (ofFiles files).toList = 1 := by
  intro h
  have hr : ∀ f ∈ [endingSheet], f.role = .stylesheet ∨ f.role = .asset := by decide
  have he : styleSection (styleText [endingSheet]) ≠ "" :=
    styleSection_ne_empty (by decide)
  have hpage := h [endingSheet] hr he
  rw [occurrences_ofFiles_styles hr he] at hpage
  revert hpage
  decide

end Workbench.Page
