import Workbench.File.Recognition

/-!
# Files

A file has an id, a name, a kind and a content. Renaming keeps the first name, so that references
to it still find the file.
-/

namespace Workbench

/-- The content of a file. -/
inductive Content where
  /-- Text that can be edited. -/
  | text (s : String)
  /-- Bytes, as base64. -/
  | payload (base64 : String)
  deriving DecidableEq, Repr

namespace Content

/-- The text, if the content is one. -/
def text? : Content → Option String
  | text s => some s
  | payload _ => none

/-- The stored string. -/
def stored : Content → String
  | text s => s
  | payload s => s

/-- The content is bytes. -/
def isPayload : Content → Bool
  | text _ => false
  | payload _ => true

end Content

/-- A file of a project. -/
structure File where
  id : Nat
  name : String
  /-- The name it was added under, if it was renamed since. -/
  firstName? : Option String
  kind : Kind
  content : Content
  deriving DecidableEq, Repr

namespace File

/-- A file under its first name. -/
def new (id : Nat) (name : String) (kind : Kind) (content : Content) : File :=
  ⟨id, name, none, kind, content⟩

/-- The file under a new name. -/
def rename (f : File) (name : String) : File :=
  { f with name := name, firstName? := some (f.firstName?.getD f.name) }

/-- The text of the file; a file of bytes has the empty text. -/
def text (f : File) : String := f.content.text?.getD ""

/-- What becomes of the file when a page is composed. -/
def role (f : File) : Role := f.kind.role

/-- The file with a new text, and of the kind that its name and this text make it. -/
def edit (f : File) (text : String) : File :=
  { f with kind := recognise f.name (some text), content := .text text }

/-- The file under a new name; a file that holds text gets the kind that this name and its text make
it. -/
def renameAs (f : File) (name : String) : File :=
  match f.content with
  | .text s => { f.rename name with kind := recognise name (some s) }
  | .payload _ => f.rename name

@[simp] theorem name_rename (f : File) (name : String) : (f.rename name).name = name := rfl

@[simp] theorem content_rename (f : File) (name : String) :
    (f.rename name).content = f.content := rfl

@[simp] theorem firstName?_rename (f : File) (name : String) :
    (f.rename name).firstName? = some (f.firstName?.getD f.name) := rfl

end File
end Workbench
