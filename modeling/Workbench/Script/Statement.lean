import Workbench.Pattern.Template
import Workbench.Text.Basic

/-!
# Import and export statements

Rules that take module syntax out of a script. They know the common forms of a statement; a text in
any other form is left as it is. Every rule but `defaultExport` reads from the start of a line.
-/

namespace Workbench.Script

open Pattern

/-- Blanks between the words of a statement, line ends among them. -/
def gap : Pattern := many Text.isBlank

/-- A gap that separates two words. -/
def separator : Pattern := some1 Text.isBlank

/-- The blanks that indent a line. -/
def indent : Pattern := many Text.isIndent

/-- Either quote. -/
def isQuote (c : Char) : Bool := c == '\'' || c == '"'

theorem isQuote_iff {c : Char} : isQuote c = true ↔ c = '\'' ∨ c = '"' := by
  rw [isQuote, Bool.or_eq_true, beq_iff_eq, beq_iff_eq]

theorem isBlank_eq_false_of_isQuote {c : Char} (h : isQuote c = true) : Text.isBlank c = false := by
  rcases isQuote_iff.mp h with rfl | rfl <;> decide

/-- A character inside a module specifier. -/
def isSpecifierChar (c : Char) : Bool := !isQuote c && c != '\n'

/-- The first character of an identifier. -/
def isNameStart (c : Char) : Bool := Text.isLetter c || c == '_' || c == '$'

/-- A later character of an identifier. -/
def isNamePart (c : Char) : Bool := Text.isWord c || c == '$'

/-- An identifier. -/
def identifier : Pattern := seq (char isNameStart) (many isNamePart)

/-- A quoted module specifier. The two quotes need not be the same. -/
def specifier : Pattern := all [char isQuote, some1 isSpecifierChar, char isQuote]

/-- The word `from` and a specifier. -/
def fromClause : Pattern := all [text "from", gap, specifier]

/-- A list in braces. -/
def braced : Pattern := all [this '\x7b', many (· != '\x7d'), this '\x7d']

/-- A star under a new name. -/
def starAs : Pattern := all [this '*', gap, text "as", separator, identifier]

/-- The end of a line, with or without a carriage return. -/
def lineBreak : Pattern := all [optional (this '\r'), this '\n']

/-- Indent blanks and at most one end of a line. -/
def blankTail : Pattern := all [indent, optional lineBreak]

/-- What may follow a statement: a semicolon, blanks and at most one end of a line. -/
def statementTail : Pattern := all [indent, optional (this ';'), blankTail]

/-- Reads `import { a, b as c } from '...'`. -/
def namedImport : Rule :=
  .deleting <| all [lineStart, indent, text "import", gap, braced, gap, fromClause, statementTail]

/-- Reads `import * as name from '...'`. -/
def namespaceImport : Rule :=
  .deleting <| all [lineStart, indent, text "import", gap, starAs, separator, fromClause,
    statementTail]

/-- Reads `import name from '...'`, also with a list or a namespace after the name. -/
def defaultImport : Rule :=
  .deleting <| all [lineStart, indent, text "import", separator, identifier, gap,
    optional (all [this ',', gap, either braced starAs, gap]), fromClause, statementTail]

/-- Reads `import '...'`, which runs a module and binds nothing. Group 1 is the statement. -/
def bareImport : Rule :=
  .deleting <| all [lineStart, indent,
    group 1 (all [text "import", gap, specifier, indent, optional (this ';')]), blankTail]

/-- An exported function, asynchronous or a generator or neither. Group 3 is the name. -/
def exportedFunction : Rule where
  pattern := all [lineStart, group 1 indent, text "export", separator,
    group 2 (all [optional (all [text "async", separator]), text "function", wordEdge, gap,
      optional (this '*'), gap]),
    group 3 identifier]
  template := [.group 1, .group 2, .group 3]

/-- An exported class. Group 3 is the name. -/
def exportedClass : Rule where
  pattern := all [lineStart, group 1 indent, text "export", separator,
    group 2 (all [text "class", separator]), group 3 identifier]
  template := [.group 1, .group 2, .group 3]

/-- An exported variable. Group 3 is the name. -/
def exportedBinding : Rule where
  pattern := all [lineStart, group 1 indent, text "export", separator,
    group 2 (anyOf [text "const", text "let", text "var"]), separator, group 3 identifier]
  template := [.group 1, .group 2, .text " ", .group 3]

/-- Reads `export { a, b }`, also from another module. -/
def listExport : Rule :=
  .deleting <| all [lineStart, indent, text "export", gap, braced,
    optional (all [gap, fromClause]), statementTail]

/-- Reads `export default`, before an expression that stays as a statement. -/
def defaultExport : Rule :=
  .deleting <| all [wordEdge, text "export", separator, text "default", separator]

/-- Reads `export * from '...'`, also under a name. -/
def starExport : Rule :=
  .deleting <| all [lineStart, indent, text "export", gap, this '*',
    optional (all [gap, text "as", separator, identifier]), gap, fromClause, statementTail]

/-- A function declared at the start of a line. Group 1 is the name. -/
def declaredFunction : Rule :=
  .deleting <| all [lineStart, indent, optional (all [text "async", separator]), text "function",
    wordEdge, gap, optional (this '*'), gap, group 1 identifier, gap, this '(']

end Workbench.Script
