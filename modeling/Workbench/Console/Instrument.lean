import Workbench.Settings
import Workbench.Text.Quoted

/-!
# The script that reports to the console

Every composed page begins with a script that posts the console calls of the page, its uncaught
errors and its unhandled rejections to the window around it. Each message is an object with the tag
of the console, a level and the list of arguments.
-/

namespace Workbench.Console

/-- The script up to the tag of the console. -/
def scriptHead : String := String.join [
  "(function () \x7b\n",
  "  var MESSAGE_TYPE = "]

/-- The script from there to the text that stands for an argument without a JSON form. -/
def scriptMiddle : String := String.join [
  ";\n",
  "  var PLACEHOLDER = "]

/-- The rest of the script. -/
def scriptTail : String := String.join [
  ";\n",
  "  var host = window.parent;\n",
  "\n",
  "  function serialize(value) \x7b\n",
  "    if (value instanceof Error) \x7b\n",
  "      return \x7b message: value.message, stack: value.stack \x7d;\n",
  "    \x7d\n",
  "    try \x7b\n",
  "      var json = JSON.stringify(value);\n",
  "      return json === undefined ? String(value) : JSON.parse(json);\n",
  "    \x7d catch (e) \x7b\n",
  "      return PLACEHOLDER;\n",
  "    \x7d\n",
  "  \x7d\n",
  "\n",
  "  function post(level, args) \x7b\n",
  "    try \x7b\n",
  "      host.postMessage(\x7b type: MESSAGE_TYPE, level: level, message: args \x7d, '*');\n",
  "    \x7d catch (e) \x7b\n",
  "      // host unreachable; the sandbox console still has the original call\n",
  "    \x7d\n",
  "  \x7d\n",
  "\n",
  "  ['log', 'warn', 'error'].forEach(function (level) \x7b\n",
  "    var original = console[level];\n",
  "    console[level] = function () \x7b\n",
  "      var args = Array.prototype.slice.call(arguments);\n",
  "      post(level, args.map(serialize));\n",
  "      if (original) \x7b\n",
  "        original.apply(console, args);\n",
  "      \x7d\n",
  "    \x7d;\n",
  "  \x7d);\n",
  "\n",
  "  window.onerror = function (message, source, line, column, error) \x7b\n",
  "    var file = source ? String(source).split('/').pop() : '';\n",
  "    var args = [String(message), 'at ' + file + ':' + line + ':' + column];\n",
  "    if (error) \x7b\n",
  "      args.push(serialize(error));\n",
  "    \x7d\n",
  "    post('error', args);\n",
  "    return true;\n",
  "  \x7d;\n",
  "\n",
  "  window.addEventListener('unhandledrejection', function (event) \x7b\n",
  "    post('error', ['Unhandled promise rejection:', serialize(event.reason)]);\n",
  "  \x7d);\n",
  "\x7d)();\n"]

/-- The element that holds the script. -/
def instrument : String :=
  "<script>\n" ++ scriptHead ++ Text.quoted Settings.consoleTag ++ scriptMiddle
    ++ Text.quoted Settings.unserializable ++ scriptTail ++ "</script>\n"

end Workbench.Console
