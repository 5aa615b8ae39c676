import Workbench.Markup.Element
import Workbench.Text.Basic

/-!
# References

A reference is external when it points outside the project: it is blank, a fragment, or begins with
a scheme or two slashes. Of the elements of a fragment, an empty `script` element with a local
script as source and a `link` to a local style sheet are left out, since their files are part of the
composed page; external ones stay and load from the network.
-/

namespace Workbench.Markup

/-- Beginnings of references that point outside the project. -/
def externalStarts : List String :=
  ["#", "//", "http:", "https:", "data:", "blob:", "mailto:", "tel:", "javascript:"]

/-- The reference points outside the project. -/
def isExternal (reference : String) : Bool :=
  let lower := Text.asciiLower (Text.trim reference)
  lower.isEmpty || externalStarts.any (Text.startsWith lower)

/-- The reference without query and fragment. -/
def withoutQuery (reference : String) : String :=
  String.ofList (reference.toList.takeWhile fun c => c != '?' && c != '#')

/-- The source of a `script` element is a script of the project, told by its name. -/
def isLocalScript (source : String) : Bool :=
  !isExternal source &&
    let path := Text.asciiLower (withoutQuery source)
    Text.endsWith path ".js" || Text.endsWith path ".mjs"

/-- The first `href` of a `link` element, if it has one. -/
def hrefOf? (link : List Char) : Option String :=
  (hyperReference.pattern.first? (String.ofList link)).map fun h => String.ofList (h.groupText 1)

/-- The fragment without `script` elements whose source is local. -/
def dropLocalScripts (fragment : String) : String :=
  scriptReference.pattern.replace
    (fun h => if isLocalScript (String.ofList (h.groupText 1)) then [] else h.text) fragment

/-- The fragment without links to style sheets that are local or have no reference. -/
def dropLocalStylesheets (fragment : String) : String :=
  styleReference.pattern.replace
    (fun h => if (hrefOf? h.text).any isExternal then h.text else []) fragment

/-- The fragment without references to files that are part of the page. -/
def dropLocalReferences (fragment : String) : String :=
  dropLocalStylesheets (dropLocalScripts fragment)

end Workbench.Markup
