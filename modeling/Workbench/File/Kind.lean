import Workbench.Text.Basic

/-!
# Kinds of files

What a file is, told apart as far as composition, delivery and editing need it.
-/

namespace Workbench

/-- The kind of a file. -/
inductive Kind where
  | html
  | css
  | script
  | moduleScript
  | json
  | xml
  | markdown
  | plain
  | svg
  | image
  | audio
  | video
  | font
  | pdf
  | binary
  deriving DecidableEq, Repr

/-- What becomes of a file when a page is composed. -/
inductive Role where
  /-- Its body is part of the page. -/
  | markup
  /-- It is part of the style block. -/
  | stylesheet
  /-- It is part of the classic script block. -/
  | classicScript
  /-- It is linked into the module script. -/
  | moduleScript
  /-- References to it are replaced by its content. -/
  | asset
  /-- It is not part of the page. -/
  | inert
  deriving DecidableEq, Repr

namespace Kind

/-- The kind that a file name extension stands for, in any ASCII letter case. -/
def ofExtension (ext : String) : Kind :=
  match Text.asciiLower ext with
  | "html" | "htm" => html
  | "css" => css
  | "js" | "jsx" | "ts" | "tsx" => script
  | "mjs" | "esm" => moduleScript
  | "json" => json
  | "xml" => xml
  | "md" | "markdown" => markdown
  | "txt" => plain
  | "svg" => svg
  | "png" | "jpg" | "jpeg" | "gif" | "webp" | "ico" | "bmp" | "avif" => image
  | "mp3" | "wav" | "ogg" | "m4a" | "flac" => audio
  | "mp4" | "webm" | "mov" => video
  | "woff" | "woff2" | "ttf" | "otf" | "eot" => font
  | "pdf" => pdf
  | _ => binary

/-- The name of the kind, as shown to the user. -/
def name : Kind → String
  | html => "html"
  | css => "css"
  | script => "javascript"
  | moduleScript => "javascript-module"
  | json => "json"
  | xml => "xml"
  | markdown => "markdown"
  | plain => "text"
  | svg => "svg"
  | image => "image"
  | audio => "audio"
  | video => "video"
  | font => "font"
  | pdf => "pdf"
  | binary => "binary"

/-- The MIME type of the kind. -/
def mime : Kind → String
  | html => "text/html"
  | css => "text/css"
  | script | moduleScript => "text/javascript"
  | json => "application/json"
  | xml => "application/xml"
  | markdown => "text/markdown"
  | plain => "text/plain"
  | svg => "image/svg+xml"
  | image => "image/png"
  | audio => "audio/mpeg"
  | video => "video/mp4"
  | font => "font/woff2"
  | pdf => "application/pdf"
  | binary => "application/octet-stream"

/-- The mode in which an editor shows files of the kind. -/
def editorMode : Kind → String
  | html => "htmlmixed"
  | css => "css"
  | script | moduleScript => "javascript"
  | json => "application/json"
  | xml | svg => "xml"
  | markdown => "markdown"
  | plain => "text/plain"
  | image | audio | video | font | pdf | binary => "none"

/-- Files of the kind are edited as text. -/
def isText : Kind → Bool
  | image | audio | video | font | pdf | binary => false
  | _ => true

/-- What becomes of files of the kind. -/
def role : Kind → Role
  | html => .markup
  | css => .stylesheet
  | script => .classicScript
  | moduleScript => .moduleScript
  | svg | image | audio | video | font | pdf | binary => .asset
  | json | xml | markdown | plain => .inert

end Kind
end Workbench
