import Workbench.Proofs.Page.Embedded
import Workbench.Proofs.Studio.Kinds

/-!
# Uploaded bytes

The content of a file stays as it is until the file is edited or removed, whatever else happens to the
workbench (`Holds.act`, `Holds.acts`): renaming a file changes its name and perhaps its kind. A binary
upload is stored as the base64 text of its bytes, and a composed page puts the stored text into the
URLs of assets. So the bytes of an upload reach every page in which a reference is resolved to the
file (`asset_bytes_survive`).
-/

namespace Workbench.Studio

open Browser Pattern

variable {s : Studio} {p : Project} {id : Nat} {content : Content}

/-- The action neither edits nor removes the file with this id. -/
def Action.spares (id : Nat) : Action → Bool
  | .edit i _ => i != id
  | .remove i => i != id
  | _ => true

/-- A file with this id has this content. -/
def Holds (p : Project) (id : Nat) (content : Content) : Prop :=
  ∃ f ∈ p.files, f.id = id ∧ f.content = content

theorem content_renameAs (f : File) (name : String) : (f.renameAs name).content = f.content := by
  unfold File.renameAs
  split <;> rfl

/-! ## Single changes -/

namespace Holds

theorem add (h : Holds p id content) (name : String) (kind : Kind) (added : Content) :
    Holds (p.add name kind added) id content := by
  obtain ⟨f, hf, hid, hc⟩ := h
  exact ⟨f, Project.mem_add.mpr (.inl hf), hid, hc⟩

theorem remove (h : Holds p id content) {i : Nat} (hi : i ≠ id) :
    Holds (p.remove i) id content := by
  obtain ⟨f, hf, rfl, hc⟩ := h
  exact ⟨f, List.mem_filter.mpr ⟨hf, bne_iff_ne.mpr hi.symm⟩, rfl, hc⟩

theorem update (h : Holds p id content) {i : Nat} {change : File → File}
    (hc : ∀ f, i = id → (change f).id = f.id ∧ (change f).content = f.content) :
    Holds (p.update i change) id content := by
  obtain ⟨f, hf, rfl, rfl⟩ := h
  refine ⟨_, Project.mem_update.mpr ⟨f, hf, rfl⟩, ?_⟩
  split
  · rename_i hi
    exact hc f hi.symm
  · exact ⟨rfl, rfl⟩

/-! ## Actions and histories -/

theorem importAll (h : Holds s.project id content) (uploads : List Upload) :
    Holds (s.importAll uploads).1.project id content :=
  importAll_induction (P := fun t => Holds t.project id content) h
    (fun _ _ _ ht => ht.add _ _ _) (fun _ _ ht => ht) uploads

theorem act {s : Studio × Tabs} (h : Holds s.1.project id content) {a : Action}
    (ha : a.spares id = true) : Holds (act s a).1.project id content := by
  cases a with
  | add name =>
    show Holds (s.1.add name).project id content
    unfold Studio.add
    dsimp only
    split
    · exact h
    · exact h.add _ _ _
  | take name added => exact h.add _ _ _
  | importAll uploads => exact h.importAll uploads
  | remove i => exact h.remove (bne_iff_ne.mp ha)
  | edit i text => exact h.update fun _ hi => absurd hi (bne_iff_ne.mp ha)
  | rename i name =>
    show Holds (s.1.rename i name).project id content
    unfold Studio.rename
    dsimp only
    split
    · exact h
    · exact h.update fun f _ => ⟨id_renameAs f _, content_renameAs f _⟩
  | renderInTab b =>
    obtain ⟨notice?, hn⟩ := exists_renderInTab_eq s.1 b s.2
    show Holds (s.1.renderInTab b s.2).1.project id content
    rw [hn]
    exact h
  | receive fromPage data =>
    show Holds (s.1.receive fromPage data).project id content
    unfold Studio.receive
    split <;> exact h
  | activate _ | setMode _ | render | hidePreview | setNotice _ | clearConsole => exact h

theorem acts {history : List Action} : ∀ {s : Studio × Tabs}, Holds s.1.project id content →
    (∀ a ∈ history, a.spares id = true) → Holds (history.foldl Studio.act s).1.project id content := by
  induction history with
  | nil => exact fun h _ => h
  | cons a history ih =>
    intro s h ha
    rw [List.forall_mem_cons] at ha
    exact ih (h.act ha.1) ha.2

end Holds

/-! ## Uploads -/

/-- The id of the file that is uploaded after these. -/
def uploadId (s : Studio) (uploads : List Upload) : Nat := (uploads.foldl importOne s).project.nextId

theorem content_of_isPayload {u : Upload} (hb : u.isPayload = true) :
    u.content = .payload (Text.Base64.encode u.bytes) := by
  rw [Upload.content, if_pos hb]

theorem holds_importAll (s : Studio) (us us' : List Upload) {u : Upload} (hr : u.readable = true) :
    Holds (s.importAll (us ++ u :: us')).1.project (s.uploadId us) u.content := by
  have hread : u.read = .ok u.content := if_pos hr
  have hone : importOne (us.foldl importOne s) u = (us.foldl importOne s).take u.name u.content := by
    rw [importOne, hread]
  have htaken : Holds (importOne (us.foldl importOne s) u).project (s.uploadId us) u.content := by
    rw [hone]
    exact ⟨_, Project.mem_add.mpr (.inr rfl), rfl, rfl⟩
  have hrest := htaken.importAll us'
  rw [Studio.importAll] at hrest ⊢
  rw [List.foldl_append, List.foldl_cons]
  exact hrest

/-- The bytes of a binary upload reach every page that is composed before the file is edited or
removed, wherever a reference is resolved to the file; and so do the bytes of the current text of a
file that holds text. -/
theorem asset_bytes_survive :
    (∀ (s : Studio) (before after : List Action) (us us' : List Upload) (u : Upload),
      u.readable = true → u.isPayload = true →
      (∀ a ∈ after, a.spares ((s.run before).1.uploadId us) = true) →
      ∃ f ∈ (s.run (before ++ .importAll (us ++ u :: us') :: after)).1.project.files,
        f.id = (s.run before).1.uploadId us ∧
        Page.Embedded (s.run (before ++ .importAll (us ++ u :: us') :: after)).1.project.files f
          u.bytes) ∧
    ∀ (files : List File) (f : File) (text : String), f.content = .text text →
      Page.Embedded files f text.toUTF8.data.toList := by
  refine ⟨fun s before after us us' u hr hb ha => ?_, fun files f text hc => ?_⟩
  · have hrun : s.run (before ++ .importAll (us ++ u :: us') :: after) =
        after.foldl act (act (s.run before) (.importAll (us ++ u :: us'))) := by
      rw [run, List.foldl_append, List.foldl_cons]
      rfl
    have h := (holds_importAll (s.run before).1 us us' hr).acts
      (s := act (s.run before) (.importAll (us ++ u :: us'))) ha
    rw [← hrun, content_of_isPayload hb] at h
    obtain ⟨f, hf, hid, hc⟩ := h
    refine ⟨f, hf, hid, Page.embedded_of_standsFor ?_⟩
    rw [hc]
    rfl
  · refine Page.embedded_of_standsFor ?_
    rw [hc]
    rfl

/-- An image. -/
def logo : Upload := ⟨"logo.png", "image/png", [137, 80, 78, 71], "�PNG", true⟩

/-- A style sheet that refers to the image is added, and then the image is renamed. -/
def restyle : List Action :=
  [.take "style.css" (.text "p\x7bmask:url(./logo.png?v=2)\x7d"), .rename 0 "brand.png"]

/-- The reference in the style sheet. -/
def logoUrl : Hit :=
  ⟨"url(./logo.png?v=2)".toList,
    [⟨2, "./logo.png?v=2)\x7d".toList, 14⟩, ⟨1, "./logo.png?v=2)\x7d".toList, 0⟩], "\x7d".toList⟩

theorem asset_bytes_survive_renamedLogo :
    logo.readable = true ∧ logo.isPayload = true ∧ (∀ a ∈ restyle, a.spares 0 = true) ∧
    Page.Shows (bare.run ([] ++ .importAll ([] ++ logo :: []) :: restyle)).1.project.files logo.bytes
      fun url => ("p\x7bmask:url(\"" ++ url ++ "\")\x7d").toList := by
  have hspares : ∀ a ∈ restyle, a.spares 0 = true := by decide
  refine ⟨rfl, rfl, hspares, ?_⟩
  obtain ⟨f, hf, hid, hpage⟩ := asset_bytes_survive.1 bare [] restyle [] [] logo rfl rfl hspares
  have hfiles : (bare.run ([] ++ .importAll ([] ++ logo :: []) :: restyle)).1.project.files =
      [⟨0, "brand.png", some "logo.png", .image, logo.content⟩,
        ⟨1, "style.css", none, .css, .text "p\x7bmask:url(./logo.png?v=2)\x7d"⟩] := by decide
  rw [hfiles] at hf hpage ⊢
  have hlogo : f = ⟨0, "brand.png", some "logo.png", .image, logo.content⟩ := by
    rcases List.mem_pair.mp hf with rfl | rfl
    · rfl
    · exact absurd hid (by decide)
  subst hlogo
  have hshown := hpage.inSheet _ (List.mem_singleton.mpr rfl)
    ⟨"logo.png", .image, logo.content⟩ ⟨by decide, rfl, rfl⟩ ("p\x7bmask:".toList.map .gap) logoUrl
    [.gap '\x7d'] rfl (by decide)
  obtain ⟨url, hbytes, hurl⟩ := hshown
  refine ⟨url, hbytes, ?_⟩
  simpa [Page.styled, Piece.write] using hurl

end Workbench.Studio
