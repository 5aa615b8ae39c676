import Workbench.Script.Statement

/-!
# Linking modules into one script

Modules become one flat script. Statements that only bind or unbind names between modules go:
imports are left out and exports become plain declarations. A bare import has to stand outside the
`try` block around the script, so these statements are kept apart. The modules follow one another in
the given order, each under a comment with its name; a module can use what an earlier one declares.
At the end every name that a module exports, and every function declared at the start of a line, is
put on the global object, since handlers in markup look there.
-/

namespace Workbench.Script

/-- A module before linking. -/
structure Source where
  name : String
  text : String

/-- The result of linking. -/
structure Linked where
  /-- The bare imports, each once, in the order of their first occurrence. -/
  hoisted : List String
  /-- The modules and the block that exposes names. -/
  script : String
  /-- The exposed names, each once, in the order of their first occurrence. -/
  names : List String

/-- Rules that leave imports out. -/
def importRemovals : List Rule := [bareImport, namedImport, namespaceImport, defaultImport]

/-- Rules that turn an export into a declaration; the name is group 3. -/
def declarations : List Rule := [exportedFunction, exportedClass, exportedBinding]

/-- Rules that leave an export out. -/
def exportRemovals : List Rule := [listExport, starExport, defaultExport]

/-- Applies rules one after the other. -/
def applyAll (rules : List Rule) (text : String) : String :=
  rules.foldl (fun s r => r.apply s) text

/-- Applies declaring rules one after the other, collecting names before each. -/
def declareAll : List Rule → String → List String × String
  | [], text => ([], text)
  | r :: rules, text =>
    let later := declareAll rules (r.apply text)
    (r.collect 3 text ++ later.1, later.2)

/-- The text of a module without import and export statements. -/
def Source.body (m : Source) : String :=
  applyAll exportRemovals (declareAll declarations (applyAll importRemovals m.text)).2

/-- The names that a module declares for others, in the order in which they are found. -/
def Source.names (m : Source) : List String :=
  (declareAll declarations (applyAll importRemovals m.text)).1 ++ declaredFunction.collect 1 m.body

/-- The bare imports of a module. -/
def Source.bareImports (m : Source) : List String := bareImport.collect 1 m.text

/-- The module in the script, under its name. -/
def Source.block (m : Source) : String :=
  "// --- " ++ m.name ++ " ---\n" ++ Text.trimEnd m.body ++ "\n\n"

/-- The line that puts a name on the global object. -/
def globalLine (name : String) : String :=
  "if (typeof " ++ name ++ " !== 'undefined') \x7b window." ++ name ++ " = " ++ name ++ "; \x7d\n"

/-- The block that puts the names on the global object. -/
def globalBlock : List String → String
  | [] => ""
  | names => "// Make declarations reachable from inline event handlers\n"
      ++ String.join (names.map globalLine)

/-- Links modules. -/
def link (modules : List Source) : Linked :=
  let names := (modules.flatMap Source.names).eraseDups
  { hoisted := (modules.flatMap Source.bareImports).eraseDups
    script := String.join (modules.map Source.block) ++ globalBlock names
    names := names }

/-- Nothing is left to run. -/
def Linked.isEmpty (l : Linked) : Bool := l.script.isEmpty && l.hoisted.isEmpty

end Workbench.Script
