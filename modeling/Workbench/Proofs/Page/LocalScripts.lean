import Workbench.Page.Document
import Workbench.Proofs.Markup.ScriptReference
import Workbench.Proofs.Page.AssetReading
import Workbench.Proofs.Page.StyleAttribute
import Workbench.Proofs.Paths.Resolve
import Workbench.Proofs.Paths.Table
import Workbench.Proofs.Pattern.InPlace
import Workbench.Proofs.Text.Lowercase

/-!
# Script elements of inlined files

The scripts of a project are part of its page, so a `script` element that refers to one is left out of
the markup. Which elements are left out is told by the reference: it is not external and ends, query
and fragment aside, with `.js` or `.mjs`. That is not every element whose source leads to a script
(`not_isLeftOut`), but it is every one in the usual form whose source leads to a file with one of the
two endings (`markupBlock_of_namesScript`): a reference that ends in a name leads to a path with the
same ending, whatever its letter case and the segments before.

What is left out is this one element. Its text can stand in the page all the same, where the text around
something that was left out closes up to it. But then it stands in what is left of the body: the assets
that are put in afterwards do not bring it back, as what is written for them lies between quotes and the
source of the element is no URL (`infix_of_infix_inlineMarkup`).
-/

namespace Workbench

open Markup Paths Pattern Script

/-- The path ends like that of a script, in any ASCII letter case. -/
def isScriptPath (path : String) : Bool :=
  Text.endsWith (Text.asciiLower path) ".js" || Text.endsWith (Text.asciiLower path) ".mjs"

namespace PathTable

variable {t : PathTable} {e : Entry} {path : String}

theorem lowercase_of_lookup? (h : t.lookup? path = some e) :
    Text.lowercase e.path = Text.lowercase path := by
  unfold lookup? at h
  split at h
  · rename_i e' he
    obtain rfl := Option.some.inj h
    have hpath : (e'.path == path) = true :=
      List.find?_some (p := fun x : Entry => x.path == path) he
    rw [eq_of_beq hpath]
  · have hlower : (Text.lowercase e.path == Text.lowercase path) = true :=
      List.find?_some (p := fun x : Entry => Text.lowercase x.path == Text.lowercase path) h
    exact eq_of_beq hlower

theorem endsWith_of_lookup? (h : t.lookup? path = some e) {tail : String}
    (ht : tail.toList.all Text.isSteady = true) :
    Text.endsWith (Text.asciiLower e.path) tail = true ↔
      Text.endsWith (Text.asciiLower path) tail = true := by
  rw [List.all_eq_true] at ht
  rw [Text.endsWith, Text.endsWith, List.isSuffixOf_iff_suffix, List.isSuffixOf_iff_suffix,
    ← Text.suffix_lowercase_iff ht, ← Text.suffix_lowercase_iff ht, lowercase_of_lookup? h]

/-- What a reference leads to is called a script exactly when the reference is. -/
theorem isScriptPath_of_find? {reference current : String} (hn : NamesFile reference)
    (h : t.find? reference (some current) = some e) : isScriptPath e.path = isScriptPath reference := by
  have hend {tail : String} (ht : tail.toList.all Text.isSteady = true) (hs : '/' ∉ tail.toList) :
      Text.endsWith (Text.asciiLower e.path) tail = Text.endsWith (Text.asciiLower reference) tail :=
    Bool.eq_iff_iff.mpr ((endsWith_of_lookup? h ht).trans (endsWith_resolve hn hs))
  rw [isScriptPath, isScriptPath, hend rfl (by decide), hend rfl (by decide)]

end PathTable

namespace Page

open PathTable

variable {files : List File} {f : File} {before after source : String}

/-! ## Elements that stay -/

/-- A file with the element in its body is composed without the element, whatever script its source
leads to. -/
def IsLeftOut (before source after : String) : Prop :=
  ∀ (files : List File) (f : File) (e : Entry),
    (files.map File.name).Nodup → f ∈ filesOf .markup files →
    bodyOf f.text = before ++ (scriptElement source ++ after) → isExternal source = false →
    (PathTable.ofFiles files).find? (withoutQuery source) (some f.name) = some e →
    e.kind.role = .classicScript ∨ e.kind.role = .moduleScript →
    ¬ (scriptElement source).toList <:+: (markupBlock (PathTable.ofFiles files) f).toList

def indexFile (text : String) : File := ⟨0, "index.html", none, .html, .text text⟩

def emptyScript (name : String) : File := ⟨1, name, none, .script, .text ""⟩

/-- The page of a body with the element and of a script shows the element. -/
structure ShowsElement (before source after name : String) : Prop where
  body : bodyOf (before ++ (scriptElement source ++ after)) =
    before ++ (scriptElement source ++ after)
  inside : isExternal source = false
  name_ne : name ≠ "index.html"
  found : (PathTable.ofFiles [indexFile (before ++ (scriptElement source ++ after)),
    emptyScript name]).find? (withoutQuery source) (some "index.html") =
      some (.ofFile (emptyScript name))
  shown : (scriptElement source).toList <:+: (markupBlock
    (PathTable.ofFiles [indexFile (before ++ (scriptElement source ++ after)), emptyScript name])
    (indexFile (before ++ (scriptElement source ++ after)))).toList

theorem ShowsElement.not_isLeftOut {before source after : String} (name : String)
    (h : ShowsElement before source after name) : ¬ IsLeftOut before source after := by
  intro hleft
  refine hleft [indexFile (before ++ (scriptElement source ++ after)), emptyScript name]
    (indexFile (before ++ (scriptElement source ++ after))) (.ofFile (emptyScript name))
    ?_ ?_ h.body h.inside h.found (.inl rfl) h.shown
  · simpa [indexFile, emptyScript] using h.name_ne.symm
  · simp [filesOf, indexFile, emptyScript, File.role, Kind.role]

/-- An element stays if its reference has another ending than the file, a quote in it, or no name at
its end, or if the element stands in what is read as the source of another one. If the text around it
closes up to such an element once more, that one stays. -/
theorem not_isLeftOut :
    ¬ IsLeftOut "" "app.ts" "" ∧ ¬ IsLeftOut "" "it's.js" "" ∧ ¬ IsLeftOut "" "a.js/." "" ∧
      ¬ IsLeftOut "<script id=\" src=\"></script>" "a.js" "" ∧
      ¬ IsLeftOut "<scr" "a.js" "ipt src=\"a.js\"></script>" :=
  ⟨ShowsElement.not_isLeftOut "app.ts"
      ⟨by decide +kernel, rfl, by decide, by decide +kernel, by decide +kernel⟩,
    ShowsElement.not_isLeftOut "it's.js"
      ⟨by decide +kernel, rfl, by decide, by decide +kernel, by decide +kernel⟩,
    ShowsElement.not_isLeftOut "a.js"
      ⟨by decide +kernel, rfl, by decide, by decide +kernel, by decide +kernel⟩,
    ShowsElement.not_isLeftOut "a.js"
      ⟨by decide +kernel, rfl, by decide, by decide +kernel, by decide +kernel⟩,
    ShowsElement.not_isLeftOut "a.js"
      ⟨by decide +kernel, rfl, by decide, by decide +kernel, by decide +kernel⟩⟩

/-! ## Elements that are left out -/

/-- The source of an element, in the usual form, leads to a file that is called a script. -/
structure NamesScript (files : List File) (f : File) (source : String) : Prop where
  inside : isExternal source = false
  unquoted : source.toList.any isQuote = false
  named : NamesFile (withoutQuery source)
  found : ∃ e, (PathTable.ofFiles files).find? (withoutQuery source) (some f.name) = some e ∧
    isScriptPath e.path = true

theorem NamesScript.isLocalScript (h : NamesScript files f source) : isLocalScript source = true := by
  obtain ⟨e, he, hpath⟩ := h.found
  rw [isScriptPath_of_find? h.named he] at hpath
  exact Bool.and_eq_true _ _ ▸ ⟨by rw [h.inside]; rfl, hpath⟩

theorem NamesScript.not_isQuote (h : NamesScript files f source) :
    ∀ c ∈ source.toList, isQuote c = false := fun c hc =>
  Bool.eq_false_iff.mpr (List.any_eq_false.mp h.unquoted c hc)

/-! ## Assets that are put in -/

/-- Two quotes of the same kind with the URL of an asset between them are no part of the element: its
own source is not external. -/
theorem NamesScript.not_infix (hs : NamesScript files f source) {e : Entry} {q : Char}
    {head tail : List Char} (hq : isQuote q = true) :
    ¬ head ++ q :: (e.dataUrl.toList ++ q :: tail) <:+: (scriptElement source).toList := by
  rintro ⟨x, y, h⟩
  have hsource : '"' ∉ source.toList := fun hm => absurd (hs.not_isQuote _ hm) (by decide)
  obtain rfl : q = '"' := by
    have hm : q ∈ (scriptElement source).toList := h ▸ by simp
    rw [toList_scriptElement] at hm
    rcases isQuote_iff.mp hq with rfl | rfl
    · have hm : '\'' ∈ source.toList := by simpa [elementTail] using hm
      exact absurd (hs.not_isQuote _ hm) (by decide)
    · rfl
  -- The element has two quotes, so none stands before the first of these two.
  have hcount : (scriptElement source).toList.count '"' = 2 := by
    rw [toList_scriptElement]
    simp [elementTail, List.count_eq_zero.mpr hsource]
  have hbefore : ∀ c ∈ x ++ head, (c != '"') = true := by
    rw [← h] at hcount
    simp only [List.count_append, List.count_cons_self] at hcount
    have hnone : (x ++ head).count '"' = 0 := by
      rw [List.count_append]
      omega
    exact fun c hc => bne_iff_ne.mpr fun heq => List.count_eq_zero.mp hnone (heq ▸ hc)
  have hfirst : (x ++ head) ++ '"' :: (e.dataUrl.toList ++ '"' :: (tail ++ y)) =
      ['<', 's', 'c', 'r', 'i', 'p', 't', ' ', 's', 'r', 'c', '='] ++
        '"' :: (source.toList ++ '"' :: elementTail) := by
    simpa [toList_scriptElement] using h
  have hstops {z : List Char} : Stops (fun c => c != '"') ('"' :: z) := stops_cons.mpr (by decide)
  have hdrop := congrArg (List.dropWhile fun c => c != '"') hfirst
  rw [dropWhile_run hbefore hstops, dropWhile_run (List.all_eq_true.mp (by decide)) hstops] at hdrop
  obtain ⟨hurl, -, -⟩ :=
    (List.append_cons_inj_of_notMem hsource (by decide)).mp (List.cons.inj hdrop).2.symm
  have hdata : dataScheme <+: source.toList := by
    rw [hurl]
    exact dataScheme_prefix_dataUrl e
  exact Bool.false_ne_true (hs.inside.symm.trans (isExternal_of_dataScheme hdata))

theorem head?_scriptElement (source : String) : (scriptElement source).toList.head? = some '<' := by
  rw [toList_scriptElement]
  rfl

theorem getLast?_scriptElement (source : String) :
    (scriptElement source).toList.getLast? = some '>' := by
  rw [toList_scriptElement, List.getLast?_append, List.getLast?_append]
  rfl

theorem isForeign_bracket : IsForeign '<' ∧ IsForeign '>' := by decide

/-- What a rule writes for an asset stays out of the element. -/
theorem NamesScript.staysOut (hs : NamesScript files f source) {p : Pattern}
    {write : Hit → List Char} {asset? : Hit → Option Entry} (hw : WritesAssets p write asset?)
    {last : Option Char} {s : List Char} {h : Hit} {e : Entry} (hr : p.readAt last s = some h)
    (he : asset? h = some e) (hb : e.content.IsWellEncoded) :
    StaysOut (scriptElement source).toList (write h) := by
  obtain ⟨head, q, tail, hq, hinside, hwrite⟩ := hw.of_some hr he
  have hbracket : '<' ∉ write h ∧ '>' ∉ write h := by
    obtain ⟨hlt, hgt⟩ := bracket_of_forall_isInside hinside
    obtain ⟨hlt', hgt'⟩ := bracket_of_forall_isInside (w := [q]) (by simpa using isInside_of_isQuote hq)
    have hurl := isForeign_bracket.imp (not_mem_dataUrl hb) (not_mem_dataUrl hb)
    rw [hwrite]
    simp_all
  refine ⟨hwrite ▸ hs.not_infix hq, fun c hc => ?_, fun c hc => ?_⟩
  · exact Option.some.inj ((head?_scriptElement source).symm.trans hc) ▸ hbracket.1
  · exact Option.some.inj ((getLast?_scriptElement source).symm.trans hc) ▸ hbracket.2

theorem NamesScript.infix_of_infix_replace (hs : NamesScript files f source) {p : Pattern}
    {write : Hit → List Char} {asset? : Hit → Option Entry} (hp : p.takesSome = true)
    (hw : WritesAssets p write asset?) (hb : ∀ h e, asset? h = some e → e.content.IsWellEncoded)
    {text : String} (h : (scriptElement source).toList <:+: (p.replace write text).toList) :
    (scriptElement source).toList <:+: text.toList := by
  have hne : (scriptElement source).toList ≠ [] := by
    rw [toList_scriptElement]
    exact List.cons_ne_nil _ _
  refine Pattern.infix_of_infix_replace hne (fun hit hm => ?_) h
  obtain ⟨last, s, hr⟩ := (cuts_cut hp text.toList).exists_readAt (mem_hits.mp hm)
  cases he : asset? hit with
  | none => exact .inl (hw.of_none he)
  | some e => exact .inr (hs.staysOut hw hr he (hb hit e he))

/-- The element stands in markup with its assets in it only where it stood before. -/
theorem NamesScript.infix_of_infix_inlineMarkup (hs : NamesScript files f source)
    {table : PathTable} (hw : WellEncoded table) (current : String) {markup : String}
    (h : (scriptElement source).toList <:+: (inlineMarkup table current markup).toList) :
    (scriptElement source).toList <:+: markup.toList :=
  hs.infix_of_infix_replace rfl (writesAssets_attributeReading table current)
    (fun _ e he => hw e (mem_entries_of_assetOf? he)) <|
    hs.infix_of_infix_replace rfl (writesAssets_styleReading table current)
      (fun _ e he => hw e (mem_entries_of_assetOf? he)) h

/-! ## The page without the element -/

/-- What is left of a body around an element that is left out, with the blanks and the line end behind
it. -/
def remains (before after : String) : String :=
  dropLocalStylesheets
    (dropLocalScripts before ++ dropLocalScripts (String.ofList (afterLineEnd after.toList)))

/-- A file is composed without an element whose source leads to a script, and without the blanks and
the line end behind it: what remains of its body is what remains of the text before the element and of
the text behind it. If this does not spell the element, it is not in the composed markup. -/
theorem markupBlock_of_namesScript
    (hbody : bodyOf f.text = before ++ (scriptElement source ++ after))
    (hfree : StandsFree before source after) (hs : NamesScript files f source) :
    markupBlock (PathTable.ofFiles files) f =
      inlineMarkup (PathTable.ofFiles files) f.name (remains before after) ++ "\n" ∧
    (WellEncoded (PathTable.ofFiles files) →
      ¬ (scriptElement source).toList <:+: (remains before after).toList →
      ¬ (scriptElement source).toList <:+: (markupBlock (PathTable.ofFiles files) f).toList) := by
  have hblock : markupBlock (PathTable.ofFiles files) f =
      inlineMarkup (PathTable.ofFiles files) f.name (remains before after) ++ "\n" := by
    rw [markupBlock, dropLocalReferences, hbody,
      dropLocalScripts_append hfree hs.not_isQuote hs.isLocalScript, remains]
  refine ⟨hblock, fun hw hn hinfix => hn (hs.infix_of_infix_inlineMarkup hw f.name ?_)⟩
  have hend : "\n".toList = ['\n'] := rfl
  rw [hblock, String.toList_append, hend] at hinfix
  rcases List.infix_concat_iff.mp hinfix with hsuffix | hinfix
  · -- The line end behind the block is not the end of the element.
    obtain ⟨x, hx⟩ := hsuffix
    have hlast := congrArg List.getLast? hx
    rw [List.getLast?_append, getLast?_scriptElement, Option.some_or, List.getLast?_concat] at hlast
    exact absurd hlast (by decide)
  · exact hinfix

/-- A body that ends with the element, which refers to a script in another letter case, with segments
before the name and a query. -/
def calledFile : File := indexFile ("<p>\n" ++ scriptElement "./lib/../App.JS?v=2")

theorem markupBlock_of_namesScript_inOtherCase :
    NamesScript [calledFile, emptyScript "app.js"] calledFile "./lib/../App.JS?v=2" ∧
    StandsFree "<p>\n" "./lib/../App.JS?v=2" "" ∧
    markupBlock (PathTable.ofFiles [calledFile, emptyScript "app.js"]) calledFile = "<p>\n\n" ∧
    ¬ (scriptElement "./lib/../App.JS?v=2").toList <:+:
      (markupBlock (PathTable.ofFiles [calledFile, emptyScript "app.js"]) calledFile).toList := by
  have hfree : StandsFree "<p>\n" "./lib/../App.JS?v=2" "" := standsFree_of_not_occursIn rfl
  have hnames : NamesScript [calledFile, emptyScript "app.js"] calledFile "./lib/../App.JS?v=2" :=
    ⟨by decide, rfl, by decide, .ofFile (emptyScript "app.js"), by decide, by decide⟩
  have hw : WellEncoded (PathTable.ofFiles [calledFile, emptyScript "app.js"]) := by
    intro e he
    rcases List.mem_pair.mp he with rfl | rfl <;> trivial
  obtain ⟨hblock, hgone⟩ := markupBlock_of_namesScript (by decide) hfree hnames
  have hremains : remains "<p>\n" "" = "<p>\n" := by decide +kernel
  refine ⟨hnames, hfree, ?_, hgone hw ?_⟩
  · rw [hblock, hremains]
    decide +kernel
  · rw [hremains]
    decide

end Page
end Workbench
