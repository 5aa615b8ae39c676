import Workbench.Script.Statement

/-!
# Elements and references in markup

Patterns for the few elements and attributes of a page that composition deals with, and for the
`url(...)` of a style sheet. They read tag names and attribute names in any letter case. An
attribute name follows a blank, so `data-src` is no source.
-/

namespace Workbench.Markup

open Pattern Script

/-- The rest of a tag up to and without its closing bracket. -/
def insideTag : Pattern := many (· != '>')

/-- The equals sign of an attribute. -/
def equals : Pattern := all [gap, this '=', gap]

/-- A reference in quotes, remembered under a number. -/
def quotedReference (number : Nat) : Pattern :=
  all [char isQuote, group number (some1 fun c => !isQuote c), char isQuote]

/-- A closing tag. -/
def closingTag (name : String) : Pattern := all [anyCase ("</" ++ name), gap, this '>']

/-- A closed `body` element. Group 1 is its content. -/
def bodyElement : Rule :=
  .deleting <| all [anyCase "<body", wordEdge, insideTag, this '>', group 1 (few fun _ => true),
    closingTag "body"]

/-- The opening tag of a `body` element. -/
def bodyTag : Rule := .deleting <| all [anyCase "<body", wordEdge, insideTag, this '>']

/-- The closing tags that may end a page, with the blanks around them. -/
def pageTail : Rule :=
  .deleting <| all [gap, optional (closingTag "body"), gap, optional (closingTag "html"), gap,
    textEnd]

/-- An empty `script` element with a source. Group 1 is the source. -/
def scriptReference : Rule :=
  .deleting <| all [anyCase "<script", wordEdge, few (· != '>'), char Text.isBlank, anyCase "src",
    equals, quotedReference 1, insideTag, this '>', gap, closingTag "script", blankTail]

/-- A `link` to a style sheet. -/
def styleReference : Rule :=
  .deleting <| all [anyCase "<link", wordEdge, insideTag, char Text.isBlank, anyCase "rel", equals,
    optional (char isQuote), anyCase "stylesheet", optional (char isQuote), insideTag, this '>',
    blankTail]

/-- An `href` attribute. Group 1 is the reference. -/
def hyperReference : Rule :=
  .deleting <| all [char Text.isBlank, anyCase "href", equals, quotedReference 1]

/-- An attribute that may refer to an asset, with the blank before it. The groups are the blank and
the name, the opening quote, and the reference. -/
def assetReference : Rule :=
  .deleting <| all [
    group 1 (all [char Text.isBlank, anyOf [anyCase "src", anyCase "href", anyCase "poster"]]),
    equals, group 2 (char isQuote), group 3 (many fun c => !isQuote c), char isQuote]

/-- A `url(...)`. Group 1 is the opening quote, if any, and group 2 the reference. -/
def urlToken : Rule :=
  .deleting <| all [anyCase "url(", gap, group 1 (optional (char isQuote)),
    group 2 (some1 fun c => !isQuote c && c != ')'), optional (char isQuote), gap, this ')']

/-- The beginning of a closing `script` tag. It is kept from ending the element that holds it by a
backslash, which a string literal of a script does not mind. -/
def scriptEnd : Rule where
  pattern := all [this '<', this '/', group 1 (anyCase "script")]
  template := [.text "<\\/", .group 1]

/-! ## The body of a page -/

/-- The content of the body. Of a text with a closed `body` element the content of the first one counts.
If the element is not closed, everything after its opening tag counts, without the closing tags and
blanks that may end the page. A text without a `body` tag is a fragment and counts as a whole. -/
def bodyOf (html : String) : String :=
  match bodyElement.pattern.first? html with
  | some h => String.ofList (h.groupText 1)
  | none =>
    match bodyTag.pattern.first? html with
    | some h => pageTail.apply (String.ofList h.after)
    | none => html

end Workbench.Markup
