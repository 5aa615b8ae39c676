import Workbench.Project.Basic

/-!
# The starter project

What a new workbench holds: a page, a style sheet, a module and a classic script.
-/

namespace Workbench.Project

/-- The page of the starter project. -/
def starterPage : String := String.join [
  "<!DOCTYPE html>\n",
  "<html>\n",
  "<head>\n",
  "  <link rel=\"stylesheet\" href=\"style.css\">\n",
  "</head>\n",
  "<body>\n",
  "  <h1>Hello, playpen</h1>\n",
  "  <button onclick=\"greet('world')\">Greet</button>\n",
  "  <script src=\"script.js\"></script>\n",
  "</body>\n",
  "</html>\n"]

/-- Its style sheet. -/
def starterStyle : String := String.join [
  "body \x7b\n",
  "  font-family: sans-serif;\n",
  "  padding: 1rem;\n",
  "\x7d\n"]

/-- Its module, which a handler of the page calls. -/
def starterModule : String := String.join [
  "export function greet(name) \x7b\n",
  "  console.log(`Hello, $\x7bname\x7d!`);\n",
  "\x7d\n"]

/-- Its classic script. -/
def starterScript : String := String.join [
  "console.log('page loaded');\n"]

/-- The files of the starter project. -/
def starterFiles : List (String × Kind × String) := [
  ("index.html", .html, starterPage),
  ("style.css", .css, starterStyle),
  ("utils.mjs", .moduleScript, starterModule),
  ("script.js", .script, starterScript)]

/-- The starter project. -/
def starter : Project := ofTexts default starterFiles

end Workbench.Project
