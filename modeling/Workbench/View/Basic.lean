import Workbench.Studio.Basic

/-!
# The user interface

What the workbench shows, as trees of elements. Icons are leaves of their own, since a picture is
chosen for them elsewhere.

* The toolbar has the name of the workbench, the switch between the modes, the buttons of the preview
  and of the console, and the notice while there is one.
* The editor has a tab for each file in order, a form for a new file, a button for imports, and a pane
  for the file in the editor. The pane of a file that does not exist is that of an empty file of bytes.
* The console panel lists the lines of the console below their number, and says how many earlier ones
  were dropped, if any. The preview shows a page in a frame of its own.
-/

namespace Workbench.View

/-! ## Trees -/

/-- The icons of the user interface. -/
inductive Icon where
  | play
  | externalLink
  | trash
  | close
  | plus
  | terminal
  | upload
  | file
  | fileCode
  | fileText
  | fileImage
  deriving DecidableEq, Repr

/-- The value of an attribute. -/
inductive Value where
  | text (s : String)
  /-- The attribute stands alone, without a value. -/
  | present
  deriving DecidableEq, Repr

/-- A node of a tree. -/
inductive Node where
  | text (s : String)
  | icon (i : Icon)
  | element (tag : String) (attributes : List (String × Value)) (children : List Node)

namespace Node

/-- An element whose attributes all have values. -/
def tag (name : String) (attributes : List (String × String)) (children : List Node) : Node :=
  element name (attributes.map fun (k, v) => (k, .text v)) children

end Node

open Node Console

/-! ## The toolbar -/

/-- A button of the mode switch; the one of the current mode is pressed. -/
def modeChoice (current mode : Mode) (label : String) : Node :=
  let pressed := current = mode
  tag "button" [("class", if pressed then "modeButton active" else "modeButton"),
    ("aria-pressed", if pressed then "true" else "false")] [text label]

/-- A button with an icon and a label. -/
def actionButton (title : String) (i : Icon) (label : String) : Node :=
  tag "button" [("class", "button"), ("title", title)] [icon i, tag "span" [] [text label]]

/-- The notice with its button. -/
def noticeLine (notice : String) : Node :=
  tag "span" [("class", "notice"), ("role", "status")] [text notice,
    tag "button" [("class", "dismiss"), ("aria-label", "Dismiss")] [icon .close]]

/-- The toolbar. -/
def toolbar (s : Studio) : List Node := [
  tag "header" [("class", "toolbar")] ([
    tag "span" [("class", "brand")] [text Settings.brand],
    tag "div" [("class", "modeSwitch"), ("role", "group"), ("aria-label", "Preview mode")] [
      modeChoice s.project.mode .multi "Multi-file",
      modeChoice s.project.mode .single "Single file"],
    tag "div" [("class", "actions")] [
      actionButton "Render preview" .play "Preview",
      actionButton "Open preview in a new tab" .externalLink "New tab",
      actionButton "Clear console" .trash "Clear console"]]
    ++ (s.notice?.map noticeLine).toList)]

/-! ## The editor -/

/-- The icon of a file of some kind. -/
def fileIcon : Kind → Icon
  | .html | .css | .script | .moduleScript | .json | .xml => .fileCode
  | .markdown | .plain => .fileText
  | .svg | .image => .fileImage
  | .audio | .video | .font | .pdf | .binary => .file

/-- The tab of a file; the one in the editor is selected. -/
def tab (active? : Option Nat) (f : File) : Node :=
  tag "li" [("class", if active? = some f.id then "tab selected" else "tab")] [
    tag "span" [("class", "tabIcon")] [icon (fileIcon f.kind)],
    tag "span" [("class", "tabName"), ("title", f.kind.name)] [text f.name],
    tag "button" [("class", "iconButton"), ("aria-label", "Remove file")] [icon .close]]

/-- The form for a new file. -/
def addForm : Node :=
  tag "form" [("class", "newFile")] [
    tag "input" [("type", "text"), ("class", "nameInput"), ("placeholder", "new-file.js"),
      ("spellcheck", "false")] [],
    tag "button" [("type", "submit"), ("class", "iconButton"), ("aria-label", "Add file")]
      [icon .plus]]

/-- The button that imports files. -/
def importLabel : Node :=
  tag "label" [("class", "import")] [
    icon .upload,
    tag "span" [] [text "Import files"],
    element "input" [("type", .text "file"), ("multiple", .present), ("class", .text "hiddenInput")]
      []]

/-- What the pane says about a kind: its name and its editor mode. -/
def badge (kind : Kind) : String := kind.name ++ " · " ++ kind.editorMode

/-- The pane of the file with an id. -/
def pane (p : Project) (id : Nat) : Node :=
  let kind := ((p.file? id).map File.kind).getD .binary
  let isPayload := ((p.file? id).map (·.content.isPayload)).getD true
  tag "div" [("class", "pane")] [
    tag "div" [("class", "paneHeader")] [
      tag "input" [("type", "text"), ("class", "nameInput"), ("spellcheck", "false")] [],
      tag "span" [("class", "badge")] [text (badge kind)]],
    if isPayload then
      tag "div" [("class", "empty")]
        [text "Binary asset. Referenced files are inlined when previewed."]
    else
      tag "textarea" [("class", "textarea"), ("spellcheck", "false"), ("autocomplete", "off")] []]

/-- What stands in place of a pane while no file is in the editor. -/
def noPane : Node := tag "div" [("class", "empty")] [text "Add a file to get started."]

/-- The editor. -/
def editor (s : Studio) : List Node := [
  tag "section" [("class", "editor")] [
    tag "nav" [("class", "sidebar")] [
      tag "ul" [("class", "fileList")] (s.project.files.map (tab s.active?)),
      addForm,
      importLabel],
    match s.active? with
    | some id => pane s.project id
    | none => noPane]]

/-! ## The console panel, the preview, and the whole -/

/-- The note about dropped lines. -/
def droppedNote (n : Nat) : Node :=
  tag "div" [("class", "dropped")] [text (toString n ++ " earlier lines dropped")]

/-- The key by which the list of lines tells a line from the others. -/
def lineKey (l : Line) : Nat := l.id

/-- A line of the console. -/
def consoleLine (l : Line) : Node :=
  tag "pre" [("class", "line " ++ l.level.name), ("data-level", l.level.name)] [text l.text]

/-- The console panel. -/
def logPanel (log : BoundedLog Line) : List Node := [
  tag "section" [("class", "panel")] [
    tag "div" [("class", "header")] [
      icon .terminal,
      tag "span" [] [text "Console"],
      tag "span" [("class", "count")] [text (toString log.size)]],
    tag "div" [("class", "output")]
      ((if 0 < log.dropped then [droppedNote log.dropped] else []) ++ log.items.map consoleLine)]]

/-- The preview of a page. -/
def previewFrame (page : String) : Node :=
  tag "div" [("class", "backdrop")] [
    tag "div" [("class", "modal"), ("tabindex", "-1")] [
      tag "div" [("class", "header")] [
        tag "span" [("class", "title")] [text "Preview"],
        tag "button" [("class", "close"), ("aria-label", "Close preview")] [icon .close]],
      tag "iframe" [("class", "frame"), ("title", "Preview"),
        ("sandbox", Settings.framePermissions), ("srcdoc", page)] []]]

/-- The preview, while it is open. -/
def preview (s : Studio) : List Node := (s.preview?.map previewFrame).toList

/-- The whole user interface. -/
def whole (s : Studio) : List Node :=
  toolbar s ++ [tag "main" [("class", "workspace")] (editor s ++ logPanel s.console)]
    ++ preview s

end Workbench.View
