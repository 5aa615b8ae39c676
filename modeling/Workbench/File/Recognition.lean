import Workbench.File.Kind
import Workbench.Script.Statement

/-!
# Recognising a file

The kind of a file follows from its name and, where the name leaves room for doubt, from its text.
A known extension decides, except that a script becomes a module script when its text uses module
syntax. A file with the extension of plain text, with an unknown extension or with none is looked
into: for the root of an HTML page, then for a style rule, then for module syntax.
-/

namespace Workbench.File

open Pattern Script

/-- The root of an HTML page: its document type or its root element. -/
def pageRoot : Pattern :=
  either (all [anyCase "<!doctype", separator, anyCase "html"])
    (all [anyCase "<html", char fun c => Text.isBlank c || c == '>'])

/-- The first character of a selector. -/
def isSelectorStart (c : Char) : Bool := Text.isLetter c || c == '_' || c == '-' || c == '*'

/-- A later character of a selector. -/
def isSelectorPart (c : Char) : Bool :=
  Text.isWord c || Text.isBlank c || ",.#:>~+*[]=\"'-".toList.contains c

/-- No brace. -/
def isNoBrace (c : Char) : Bool := c != '\x7b' && c != '\x7d'

/-- A style rule with a declaration, at the start of a line. -/
def styleRule : Pattern :=
  all [lineStart, gap, optional (char fun c => c == '.' || c == '#' || c == '@'),
    char isSelectorStart, many isSelectorPart, this '\x7b', many isNoBrace, this ':',
    many isNoBrace, this '\x7d']

/-- Import and export syntax, static or dynamic. -/
def moduleMark : Pattern :=
  anyOf [
    all [lineStart, gap, text "import",
      char fun c => Text.isBlank c || c == '\x7b' || c == '*' || isQuote c],
    all [lineStart, gap, text "export", char Text.isBlank],
    all [wordEdge, text "import", gap, this '('],
    all [wordEdge, text "export", gap, this '\x7b'],
    all [wordEdge, text "export", separator, text "default", wordEdge],
    all [wordEdge, text "export", gap, this '*']]

/-- The last segment of a path. -/
def lastSegment (path : List Char) : List Char := (path.reverse.takeWhile (· != '/')).reverse

/-- The part of a file name behind its last point, in lower case. A name that begins with its last
point or ends with it has no extension. -/
def extension? (path : String) : Option String :=
  let reversed := (lastSegment path.toList).reverse
  let ext := (reversed.takeWhile (· != '.')).reverse
  match reversed.dropWhile (· != '.') with
  | '.' :: _ :: _ => if ext.isEmpty then none else some (Text.asciiLower (String.ofList ext))
  | _ => none

/-- The file is a module: by its name or by its text. -/
def isModule (name text : String) : Bool :=
  let lower := Text.asciiLower name
  Text.endsWith lower ".mjs" || Text.endsWith lower ".esm.js" || moduleMark.occursIn text

/-- What a look into the text finds, or `fallback`. -/
def inspect (name text : String) (fallback : Kind) : Kind :=
  if pageRoot.occursIn text then .html
  else if styleRule.occursIn text then .css
  else if isModule name text then .moduleScript
  else fallback

/-- The kind that the name of a file stands for. -/
def kindOfName (name : String) : Kind :=
  match extension? name with
  | some ext => Kind.ofExtension ext
  | none => .binary

/-- The kind of a file with this name and, where it is known, this text. -/
def recognise (name : String) (text? : Option String) : Kind :=
  match text? with
  | none => kindOfName name
  | some text =>
    match kindOfName name with
    | .script => if isModule name text then .moduleScript else .script
    | .plain => inspect name text .plain
    | .binary => inspect name text .binary
    | known => known

/-- Extensions of files whose content is never read as text. -/
def payloadExtensions : List String :=
  ["png", "jpg", "jpeg", "gif", "webp", "ico", "bmp", "avif", "mp3", "wav", "ogg", "m4a", "flac",
    "mp4", "webm", "mov", "woff", "woff2", "ttf", "otf", "eot", "pdf", "zip", "wasm"]

/-- Beginnings of MIME types of such files. -/
def payloadMimes : List String := ["image/", "audio/", "video/", "font/", "application/"]

/-- The content of the file is stored as bytes. An SVG image by MIME type is text, whatever its
name. -/
def isPayload (name : String) (mime? : Option String) : Bool :=
  let mime? := mime?.map Text.asciiLower
  mime? != some "image/svg+xml" &&
    ((extension? name).any payloadExtensions.contains ||
      mime?.any fun m => payloadMimes.any (Text.startsWith m))

/-- The MIME type under which a file is delivered: that of its extension, if it has one of its own
within its kind, or else that of its kind. -/
def mimeOf (path : String) (kind : Kind) : String :=
  match extension? path with
  | some "jpg" | some "jpeg" => "image/jpeg"
  | some "gif" => "image/gif"
  | some "webp" => "image/webp"
  | some "ico" => "image/x-icon"
  | some "bmp" => "image/bmp"
  | some "avif" => "image/avif"
  | some "wav" => "audio/wav"
  | some "ogg" => "audio/ogg"
  | some "m4a" => "audio/mp4"
  | some "flac" => "audio/flac"
  | some "webm" => "video/webm"
  | some "mov" => "video/quicktime"
  | some "woff" => "font/woff"
  | some "ttf" => "font/ttf"
  | some "otf" => "font/otf"
  | some "eot" => "application/vnd.ms-fontobject"
  | some "wasm" => "application/wasm"
  | _ => kind.mime

end Workbench.File
