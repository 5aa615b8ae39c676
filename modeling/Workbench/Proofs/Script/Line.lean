import Workbench.Proofs.Pattern.Reading
import Workbench.Script.Link

/-!
# Lines of a module

A module is often written with one statement on a line. Here are the lines of such a module, each
ending with a newline: imports and exports in their common forms, and lines without either. A form
carries what makes it one: a run of characters comes with their class, so a line of a form can be
built in no wrong way.

* `Line.source` is the line as it is written and `Line.image` what becomes of it.
* `Line.found` is what a line adds to the bare imports or to the names of the module.
-/

namespace Workbench.Script

/-! ## Parts of a line -/

/-- The letters of a word. -/
def letters (word : String) : List Char := word.toList

/-- Characters of a class. -/
structure Run (ok : Char → Bool) where
  chars : List Char
  all_ok : ∀ c ∈ chars, ok c = true

/-- The characters of a text that are all in the class. -/
def Run.of {ok : Char → Bool} (text : String) (h : text.toList.all ok = true) : Run ok :=
  ⟨text.toList, List.all_eq_true.mp h⟩

/-- No character. -/
def Run.empty (ok : Char → Bool) : Run ok := ⟨[], List.forall_mem_nil _⟩

/-- A blank that does not end the line. -/
def isInlineBlank (c : Char) : Bool := Text.isBlank c && c != '\n'

/-- What stands behind the word, if the text begins with it. -/
def behind? (word s : List Char) : Option (List Char) :=
  if word.isPrefixOf s then some (s.drop word.length) else none

def isInline (c : Char) : Bool := c != '\n'

def isListed (c : Char) : Bool := c != '\x7d' && c != '\n'

abbrev Indent := Run Text.isIndent

abbrev Gap := Run isInlineBlank

structure Separator where
  first : Char
  first_ok : isInlineBlank first = true
  more : Gap

def Separator.chars (s : Separator) : List Char := s.first :: s.more.chars

structure Identifier where
  first : Char
  first_ok : isNameStart first = true
  more : Run isNamePart

def Identifier.chars (x : Identifier) : List Char := x.first :: x.more.chars

/-- A specifier that is not empty, in quotes. -/
structure Specifier where
  opening : Char
  opening_ok : isQuote opening = true
  first : Char
  first_ok : isSpecifierChar first = true
  more : Run isSpecifierChar
  closing : Char
  closing_ok : isQuote closing = true

def Specifier.chars (x : Specifier) : List Char :=
  x.opening :: ((x.first :: x.more.chars) ++ [x.closing])

abbrev Names := Run isListed

def Run.inBraces (names : Names) : List Char := '\x7b' :: (names.chars ++ ['\x7d'])

/-- A star under a new name. -/
structure StarName where
  gap : Gap
  separator : Separator
  name : Identifier

/-- The new name with the word before it. -/
def StarName.asName (x : StarName) : List Char :=
  x.gap.chars ++ (letters "as" ++ (x.separator.chars ++ x.name.chars))

def StarName.chars (x : StarName) : List Char := '*' :: x.asName

structure FromClause where
  gap : Gap
  specifier : Specifier

def FromClause.chars (x : FromClause) : List Char :=
  letters "from" ++ (x.gap.chars ++ x.specifier.chars)

/-- What follows a statement in its line: blanks, and maybe a semicolon and blanks behind it. -/
structure Tail where
  before : Indent
  behind? : Option Indent

/-- The blanks before the semicolon and the semicolon. -/
def Tail.close (t : Tail) : List Char :=
  t.before.chars ++ if t.behind?.isSome then [';'] else []

/-- The blanks behind the semicolon and the end of the line. -/
def Tail.lineEnd (t : Tail) : List Char :=
  ((t.behind?.map Run.chars).getD []) ++ ['\n']

/-! ## Statements that leave nothing behind -/

/-- What stands between the name of a default import and its `from`. -/
inductive DefaultClause where
  | alone (s : Separator)
  | names (b₁ b₂ : Gap) (list : Names) (b₃ : Gap)
  | star (b₁ b₂ : Gap) (name : StarName) (s : Separator)

def DefaultClause.chars : DefaultClause → List Char
  | alone s => s.chars
  | names b₁ b₂ list b₃ => b₁.chars ++ (',' :: (b₂.chars ++ (list.inBraces ++ b₃.chars)))
  | star b₁ b₂ name s => b₁.chars ++ (',' :: (b₂.chars ++ (name.chars ++ s.chars)))

/-- An import or export that only binds or unbinds names. -/
inductive Statement where
  | namedImport (b₁ : Gap) (names : Names) (b₂ : Gap) (source : FromClause)
  | namespaceImport (b : Gap) (star : StarName) (s : Separator) (source : FromClause)
  | defaultImport (s : Separator) (name : Identifier) (clause : DefaultClause)
    (source : FromClause)
  | listExport (b : Gap) (names : Names)
  | listExportFrom (b₁ : Gap) (names : Names) (b₂ : Gap) (source : FromClause)
  | starExport (b₁ b₂ : Gap) (source : FromClause)
  | starExportAs (b : Gap) (star : StarName) (s : Separator) (source : FromClause)

def Statement.chars : Statement → List Char
  | namedImport b₁ names b₂ source =>
    letters "import" ++ (b₁.chars ++ (names.inBraces ++ (b₂.chars ++ source.chars)))
  | namespaceImport b star s source =>
    letters "import" ++ (b.chars ++ (star.chars ++ (s.chars ++ source.chars)))
  | defaultImport s name clause source =>
    letters "import" ++ (s.chars ++ (name.chars ++ (clause.chars ++ source.chars)))
  | listExport b names => letters "export" ++ (b.chars ++ names.inBraces)
  | listExportFrom b₁ names b₂ source =>
    letters "export" ++ (b₁.chars ++ (names.inBraces ++ (b₂.chars ++ source.chars)))
  | starExport b₁ b₂ source =>
    letters "export" ++ (b₁.chars ++ ('*' :: (b₂.chars ++ source.chars)))
  | starExportAs b star s source =>
    letters "export" ++ (b.chars ++ (star.chars ++ (s.chars ++ source.chars)))

/-! ## Declarations -/

inductive BindingWord where
  | constWord
  | letWord
  | varWord

def BindingWord.chars : BindingWord → List Char
  | constWord => letters "const"
  | letWord => letters "let"
  | varWord => letters "var"

/-- What stands between the word `function` and the name. -/
inductive FunctionHead where
  | plain (s : Separator)
  | generator (b₁ b₂ : Gap)

def FunctionHead.chars : FunctionHead → List Char
  | plain s => s.chars
  | generator b₁ b₂ => b₁.chars ++ ('*' :: b₂.chars)

/-- What a declaration begins with, up to its name. -/
inductive Declaration where
  | function (async? : Option Separator) (head : FunctionHead)
  | classWord (s : Separator)
  | binding (word : BindingWord) (s : Separator)

/-- The words of a declaration, with the blanks up to the name except behind `const`, `let` and
`var`. -/
def Declaration.words : Declaration → List Char
  | function none head => letters "function" ++ head.chars
  | function (some s) head => letters "async" ++ (s.chars ++ (letters "function" ++ head.chars))
  | classWord s => letters "class" ++ s.chars
  | binding word _ => word.chars

/-- The blanks between the words and the name. -/
def Declaration.beforeName : Declaration → List Char
  | binding _ s => s.chars
  | _ => []

/-- What is written for these blanks. -/
def Declaration.beforeNameImage : Declaration → List Char
  | binding _ _ => [' ']
  | _ => []

/-! ## Lines -/

/-- The text does not contain the word. -/
def Lacks (word : String) (s : List Char) : Prop := ¬ letters word <:+: s

instance (word : String) (s : List Char) : Decidable (Lacks word s) :=
  inferInstanceAs (Decidable (¬ letters word <:+: s))

/-- The end of a line behind the name that is declared in it. -/
structure Rest where
  run : Run isInline
  stops : Pattern.Stops isNamePart run.chars
  lacks : Lacks "export" run.chars

/-- The expression behind `export default`. -/
structure Expression where
  first : Char
  first_ok : Text.isBlank first = false
  more : Run isInline
  lacks : Lacks "export" (first :: more.chars)

def Expression.chars (x : Expression) : List Char := x.first :: x.more.chars

/-- A line without import and export, which does not go on with the `from` of the line before. -/
structure PlainText where
  run : Run isInline
  lacks_import : Lacks "import" run.chars
  lacks_export : Lacks "export" run.chars
  not_from : ¬ letters "from" <+: run.chars.dropWhile Text.isBlank

/-- The kinds of statements, in the order in which the rules look for them. -/
inductive Kind where
  | bareImport
  | namedImport
  | namespaceImport
  | defaultImport
  | exportedFunction
  | exportedClass
  | exportedBinding
  | listExport
  | starExport
  | defaultExport
  deriving DecidableEq

namespace Kind

/-- The rule that looks for the statements of a kind. -/
def rule : Kind → Rule
  | bareImport => Script.bareImport
  | namedImport => Script.namedImport
  | namespaceImport => Script.namespaceImport
  | defaultImport => Script.defaultImport
  | exportedFunction => Script.exportedFunction
  | exportedClass => Script.exportedClass
  | exportedBinding => Script.exportedBinding
  | listExport => Script.listExport
  | starExport => Script.starExport
  | defaultExport => Script.defaultExport

/-- The number of kinds before it. -/
def turn : Kind → Nat := Kind.ctorIdx

end Kind

def Statement.kind : Statement → Kind
  | namedImport .. => .namedImport
  | namespaceImport .. => .namespaceImport
  | defaultImport .. => .defaultImport
  | listExport .. => .listExport
  | listExportFrom .. => .listExport
  | starExport .. => .starExport
  | starExportAs .. => .starExport

def Declaration.kind : Declaration → Kind
  | function .. => .exportedFunction
  | classWord .. => .exportedClass
  | binding .. => .exportedBinding

/-- A line of a module. -/
inductive Line where
  | removed (indent : Indent) (statement : Statement) (tail : Tail)
  | bareImport (indent : Indent) (gap : Gap) (specifier : Specifier) (tail : Tail)
  | declared (indent : Indent) (s : Separator) (declaration : Declaration) (name : Identifier)
    (rest : Rest)
  | exportDefault (indent : Indent) (s₁ s₂ : Separator) (expression : Expression)
  | plain (text : PlainText)

/-- The kind of the statement in a line. -/
def Line.kind? : Line → Option Kind
  | removed _ statement _ => some statement.kind
  | bareImport .. => some .bareImport
  | declared _ _ declaration _ _ => some declaration.kind
  | exportDefault .. => some .defaultExport
  | plain _ => none

/-- What a line adds to the bare imports or the names of its module. -/
def Line.found : Line → List (List Char)
  | bareImport _ gap specifier tail =>
    [letters "import" ++ (gap.chars ++ (specifier.chars ++ tail.close))]
  | declared _ _ _ name _ => [name.chars]
  | _ => []

namespace Line

/-- The line as it is written. -/
def source : Line → List Char
  | removed indent statement tail =>
    indent.chars ++ (statement.chars ++ (tail.close ++ tail.lineEnd))
  | bareImport indent gap specifier tail =>
    indent.chars ++ (letters "import" ++ (gap.chars ++ (specifier.chars ++
      (tail.close ++ tail.lineEnd))))
  | declared indent s declaration name rest =>
    indent.chars ++ (letters "export" ++ (s.chars ++ (declaration.words ++
      (declaration.beforeName ++ (name.chars ++ (rest.run.chars ++ ['\n']))))))
  | exportDefault indent s₁ s₂ expression =>
    indent.chars ++ (letters "export" ++ (s₁.chars ++ (letters "default" ++ (s₂.chars ++
      (expression.chars ++ ['\n'])))))
  | plain text => text.run.chars ++ ['\n']

/-- What becomes of the line: imports and lists go, a declaration and a default export lose the words
that export them. -/
def image : Line → List Char
  | removed _ _ _ => []
  | bareImport _ _ _ _ => []
  | declared indent _ declaration name rest =>
    indent.chars ++ (declaration.words ++ (declaration.beforeNameImage ++ (name.chars ++
      (rest.run.chars ++ ['\n']))))
  | exportDefault indent _ _ expression => indent.chars ++ (expression.chars ++ ['\n'])
  | plain text => text.run.chars ++ ['\n']

end Line

/-! ## A word that is not a word of its own -/

/-- The name ends in `export`, and before this stands no character of a word. -/
def Identifier.endsInExport (x : Identifier) : Bool :=
  (behind? (letters "export").reverse x.chars.reverse).any fun before =>
    !before.head?.any Text.isWord

/-- The text goes on with blanks, the word `default` and a blank. -/
def defaultFollows (s : List Char) : Bool :=
  s.head?.any Text.isBlank &&
    (behind? (letters "default") (s.dropWhile Text.isBlank)).any (·.head?.any Text.isBlank)

/-- The line declares a name such as `$export` and goes on, with the text behind it, as if the end of
the name were the word `export` of a default export. -/
def Line.looksDefault (behind : List Char) : Line → Bool
  | declared _ _ _ name rest => name.endsInExport && defaultFollows (rest.run.chars ++ '\n' :: behind)
  | _ => false

end Workbench.Script
