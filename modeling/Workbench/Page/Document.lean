import Workbench.Console.Instrument
import Workbench.Markup.Reference
import Workbench.Paths.Table
import Workbench.Script.Link

/-!
# Composing a page

One authored document is shown as it is, with the console script put before the end of its head; a
text without a head is wrapped into a page. Several files are merged into one page: the console
script, the style sheets, the bodies, the linked modules and the classic scripts, in this order and
the files of each role in their own order. Sections without content are left out.

A composed page stands alone, so a reference to an asset of the project is replaced by a URL that
holds the content of the asset. Any other reference stays as it is written.
-/

namespace Workbench.Page

open Markup

/-! ## Assets -/

/-- The URL that holds the asset which a reference in the file at `current` names. -/
def assetUrl? (table : PathTable) (current reference : String) : Option String :=
  if isExternal reference then none
  else
    match table.find? (withoutQuery reference) (some current) with
    | some e => if e.kind.role = .asset then some e.dataUrl else none
    | none => none

/-- A `url(...)` with its asset in it, if it names one. -/
def styleReading (table : PathTable) (current : String) (h : Pattern.Hit) : List Char :=
  match assetUrl? table current (Text.trim (String.ofList (h.groupText 2))) with
  | some url => ("url(\"" ++ url ++ "\")").toList
  | none => h.text

/-- The style sheet with its assets in it. -/
def inlineStyle (table : PathTable) (current css : String) : String :=
  urlToken.pattern.replace (styleReading table current) css

/-- An attribute with its asset in it, if it names one. -/
def attributeReading (table : PathTable) (current : String) (h : Pattern.Hit) : List Char :=
  match assetUrl? table current (String.ofList (h.groupText 3)) with
  | some url => h.groupText 1 ++ '=' :: h.groupText 2 ++ url.toList ++ h.groupText 2
  | none => h.text

/-- The markup with its assets in it, those of inline styles among them. -/
def inlineMarkup (table : PathTable) (current markup : String) : String :=
  inlineStyle table current
    (assetReference.pattern.replace (attributeReading table current) markup)

/-! ## The page of one document -/

/-- The beginning of a page, up to the content of its head. -/
def opening : String :=
  "<!DOCTYPE html>\n<html>\n<head>\n<meta charset=\"UTF-8\">\n"
    ++ "<meta name=\"viewport\" content=\"width=device-width, initial-scale=1.0\">\n"
    ++ "<title>" ++ Settings.pageTitle ++ "</title>\n"

/-- The end of the head and the beginning of the body. -/
def headToBody : String := "</head>\n<body>\n"

/-- The end of a page. -/
def closing : String := "</body>\n</html>\n"

/-- The closing tag of a head, in lower case. -/
def headEnd : List Char := "</head>".toList

/-- The page of one authored document. -/
def ofDocument (content : String) : String :=
  match Text.splitBefore? headEnd content.toList with
  | some (before, after) => String.ofList before ++ Console.instrument ++ String.ofList after
  | none => opening ++ Console.instrument ++ headToBody ++ content ++ "\n" ++ closing

/-! ## Sections of a page of several files -/

/-- The body of a markup file in the page. -/
def markupBlock (table : PathTable) (f : File) : String :=
  inlineMarkup table f.name (Markup.dropLocalReferences (Markup.bodyOf f.text)) ++ "\n"

/-- A style sheet in the page. -/
def styleBlock (table : PathTable) (f : File) : String :=
  inlineStyle table f.name f.text ++ "\n"

/-- A classic script that keeps its errors to itself, before its closing tags are made harmless. -/
def guardedScript (name code : String) : String :=
  "// --- " ++ name ++ " ---\ntry \x7b\n" ++ Text.trimEnd code
    ++ "\n\x7d catch (err) \x7b\n  console.error("
    ++ Text.quoted ("Error in " ++ name ++ ":") ++ ", err);\n\x7d\n"

/-- A classic script in the page. Neither its code nor its name can end the element. -/
def classicBlock (name code : String) : String := Markup.scriptEnd.apply (guardedScript name code)

/-- The files of a role, in order. -/
def filesOf (role : Role) (files : List File) : List File := files.filter (·.role = role)

/-- The style element, unless there is nothing in it. -/
def styleSection (styles : String) : String :=
  if (Text.trim styles).isEmpty then "" else "<style>\n" ++ styles ++ "</style>\n"

/-- The element of the linked modules, unless there is nothing to run. -/
def moduleSection (linked : Script.Linked) : String :=
  if linked.isEmpty then ""
  else "<script type=\"module\">\n" ++ String.join (linked.hoisted.map (· ++ "\n"))
    ++ "try \x7b\n" ++ Markup.scriptEnd.apply linked.script
    ++ "\x7d catch (err) \x7b\n  console.error('Module error:', err);\n\x7d\n</script>\n"

/-- The element of the classic scripts, unless there are none. -/
def classicSection (scripts : String) : String :=
  if scripts.isEmpty then "" else "<script>\n" ++ scripts ++ "</script>\n"

/-- The module that a file holds. -/
def moduleOf (f : File) : Script.Source := ⟨f.name, f.text⟩

/-- The page of several files. -/
def ofFiles (files : List File) : String :=
  let table := PathTable.ofFiles files
  opening ++ Console.instrument
    ++ styleSection (String.join ((filesOf .stylesheet files).map (styleBlock table)))
    ++ headToBody
    ++ String.join ((filesOf .markup files).map (markupBlock table))
    ++ moduleSection (Script.link ((filesOf .moduleScript files).map moduleOf))
    ++ classicSection
      (String.join ((filesOf .classicScript files).map fun f => classicBlock f.name f.text))
    ++ closing

end Workbench.Page
