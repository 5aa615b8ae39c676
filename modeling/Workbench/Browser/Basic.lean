import Workbench.File.Basic
import Workbench.Settings
import Workbench.Text.Base64

/-!
# The browser

What the workbench asks of the browser, in the order of asking, and what can go wrong there. The
browser itself is not described: what it answers is data, given with each request (`Upload`,
`Behaviour`).

* A file that the user selects is read as bytes or as text, decided by its name and its MIME type
  before it is read. A read can fail either way.
* A page in a new tab goes into a blob, the blob gets an address, and a window is opened at the
  address. The address is given back by a timer once the window has had time to load, or at once if no
  window opened. `Tabs` keeps the calls and the addresses whose timers are pending, so that the life of
  an address can be followed through any number of pages.
-/

namespace Workbench.Browser

/-! ## Calls -/

/-- A call to the browser. -/
inductive Call where
  /-- The bytes of an uploaded file are read. -/
  | readBytes (name : String)
  /-- The text of an uploaded file is read. -/
  | readText (name : String)
  /-- A blob of a MIME type is made from a text. -/
  | makeBlob (mime text : String)
  /-- An address for a blob is asked for. -/
  | makeAddress
  /-- A window is opened. -/
  | openWindow (address target : String)
  /-- An address is given back. -/
  | revoke (address : String)
  /-- A timer fires after this many milliseconds. -/
  | timer (milliseconds : Nat)
  deriving DecidableEq, Repr

/-- Why a page was not shown in a new tab. -/
inductive TabError where
  | noBrowser
  | noBlob
  | noAddress
  | blocked
  deriving DecidableEq, Repr

/-- The text of a delivery error. -/
def TabError.message : TabError → String
  | noBrowser => "Browser window not available"
  | noBlob => "Failed to create preview document"
  | noAddress => "Failed to create preview URL"
  | blocked => "New tab was blocked. Please allow pop-ups for this site."

/-- Why a file was not imported. -/
inductive ReadError where
  | unreadable (name : String)
  deriving DecidableEq, Repr

/-- The text of an import error. -/
def ReadError.message : ReadError → String
  | unreadable name => "Failed to read " ++ name

/-! ## Reading files -/

/-- A file that the user selected, with what the browser answers when it is read. -/
structure Upload where
  name : String
  /-- The MIME type, empty when the browser knows none. -/
  mime : String
  /-- The bytes of the file. -/
  bytes : List UInt8
  /-- The text that the browser makes of the bytes. -/
  text : String
  /-- The file can be read. -/
  readable : Bool

namespace Upload

/-- The MIME type, if there is one. -/
def mime? (u : Upload) : Option String := if u.mime.isEmpty then none else some u.mime

/-- The file is read as bytes. -/
def isPayload (u : Upload) : Bool := File.isPayload u.name u.mime?

/-- The call that reads the file. -/
def call (u : Upload) : Call := if u.isPayload then .readBytes u.name else .readText u.name

/-- The content of the file. -/
def content (u : Upload) : Content :=
  if u.isPayload then .payload (Text.Base64.encode u.bytes) else .text u.text

/-- Reads the file. -/
def read (u : Upload) : Except ReadError Content :=
  if u.readable then .ok u.content else .error (.unreadable u.name)

end Upload

/-! ## Pages in new tabs -/

/-- What happens when a window is opened. -/
inductive Opening where
  | opened
  | refused
  | failed
  deriving DecidableEq, Repr

/-- How the browser behaves while one page is shown. -/
structure Behaviour where
  hasWindow : Bool
  makesBlob : Bool
  /-- The address that it hands out for the blob, unless it fails to. -/
  address? : Option String
  opening : Opening
  deriving DecidableEq, Repr

/-- A timer that will give an address back. -/
structure Timer where
  milliseconds : Nat
  address : String
  deriving DecidableEq, Repr

/-- The calls so far and the pending timers. -/
structure Tabs where
  calls : List Call
  pending : List Timer
  deriving DecidableEq, Repr

namespace Tabs

/-- Nothing has happened. -/
def start : Tabs := ⟨[], []⟩

/-- One more call. -/
def record (t : Tabs) (c : Call) : Tabs := { t with calls := t.calls ++ [c] }

/-- Shows a page in a new tab. -/
def deliver (t : Tabs) (b : Behaviour) (page : String) : Tabs × Except TabError Unit :=
  if !b.hasWindow then (t, .error .noBrowser)
  else
    let t := t.record (.makeBlob "text/html" page)
    if !b.makesBlob then (t, .error .noBlob)
    else
      let t := t.record .makeAddress
      match b.address? with
      | none => (t, .error .noAddress)
      | some address =>
        let t := t.record (.openWindow address "_blank")
        match b.opening with
        | .opened =>
          ({ t with pending := t.pending ++ [⟨Settings.tabAddressLifetime, address⟩] }, .ok ())
        | .refused | .failed => (t.record (.revoke address), .error .blocked)

/-- Lets every pending timer fire. -/
def settle (t : Tabs) : Tabs where
  calls := t.calls ++ t.pending.flatMap fun p => [.timer p.milliseconds, .revoke p.address]
  pending := []

end Tabs
end Workbench.Browser
