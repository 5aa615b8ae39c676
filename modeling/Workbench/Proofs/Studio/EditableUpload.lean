import Workbench.Proofs.Studio.ImportOrder
import Workbench.Proofs.Studio.Upload

/-!
# Uploads that are edited as text

Whether an upload is stored as text or as bytes goes by its extension and by its MIME type, and its kind
goes by its extension and by its text. The extensions do not get in each other's way: none of those
whose files are stored as bytes is that of a kind that is edited as text (`isText_ofExtension`). The
MIME type does, as it overrules the extension and says nothing about the kind.

`editable_upload_is_text_iff` gives the exact condition: a file of an editable kind holds a text unless
its extension is that of such a kind and its MIME type is one of those that are stored as bytes.
-/

namespace Workbench.File

/-- Files that are stored as bytes by their extension are not edited as text. -/
theorem isText_ofExtension : ∀ e ∈ payloadExtensions, (Kind.ofExtension e).isText = false := by
  decide

theorem any_payloadExtensions_eq_false {name : String} (h : (kindOfName name).isText = true) :
    (extension? name).any payloadExtensions.contains = false := by
  unfold kindOfName at h
  cases he : extension? name with
  | none => rfl
  | some e =>
    rw [he] at h
    rw [Option.any_some, List.contains_eq_mem, decide_eq_false_iff_not]
    intro hmem
    rw [isText_ofExtension e hmem] at h
    exact Bool.false_ne_true h

end Workbench.File

namespace Workbench.Browser.Upload

variable {u : Upload}

/-- The MIME type is one of those whose files are stored as bytes, whatever their names. -/
def isPayloadByMime (u : Upload) : Bool :=
  Text.asciiLower u.mime != "image/svg+xml" &&
    File.payloadMimes.any (Text.startsWith (Text.asciiLower u.mime))

/-- Without a MIME type only the extension counts, as if the MIME type were the empty one. -/
theorem isPayload_eq (u : Upload) :
    u.isPayload = (Text.asciiLower u.mime != "image/svg+xml" &&
      ((File.extension? u.name).any File.payloadExtensions.contains ||
        File.payloadMimes.any (Text.startsWith (Text.asciiLower u.mime)))) := by
  simp only [isPayload, File.isPayload, mime?]
  by_cases hm : u.mime = ""
  · have hempty : File.payloadMimes.any (Text.startsWith (Text.asciiLower "")) = false := by decide
    rw [hm, hempty]
    rfl
  · have hne : u.mime.isEmpty = false := by simpa using hm
    rw [hne]
    rfl

theorem isPayload_of_isPayloadByMime (h : u.isPayloadByMime = true) : u.isPayload = true := by
  rw [isPayloadByMime, Bool.and_eq_true] at h
  rw [isPayload_eq, h.1, h.2, Bool.or_true, Bool.and_true]

/-- With the extension of an editable kind only the MIME type counts. -/
theorem isPayload_eq_isPayloadByMime (h : (File.kindOfName u.name).isText = true) :
    u.isPayload = u.isPayloadByMime := by
  rw [isPayload_eq, File.any_payloadExtensions_eq_false h, Bool.false_or, isPayloadByMime]

theorem content_of_not_isPayload (h : u.isPayload = false) : u.content = .text u.text := by
  rw [content, h]
  rfl

/-! ## Editable kinds -/

/-- The upload has the extension of a kind that is edited as text, and a MIME type whose files are
stored as bytes. -/
def IsMisfiled (u : Upload) : Prop :=
  (File.kindOfName u.name).isText = true ∧ u.isPayloadByMime = true

/-- A file of an editable kind that does not hold a text is the exception. -/
theorem isMisfiled_iff (u : Upload) (id : Nat) :
    u.IsMisfiled ↔ (u.file id).kind.isText = true ∧ (u.file id).content.isPayload = true := by
  show u.IsMisfiled ↔
    (File.recognise u.name u.content.text?).isText = true ∧ u.content.isPayload = true
  cases hp : u.isPayload with
  | true =>
    rw [Studio.content_of_isPayload hp, IsMisfiled]
    refine and_congr_right fun hk => ?_
    rw [← isPayload_eq_isPayloadByMime hk, hp]
    exact iff_of_true rfl rfl
  | false =>
    rw [content_of_not_isPayload hp]
    refine iff_of_false (fun h => ?_) fun h => Bool.false_ne_true h.2
    rw [isPayload_of_isPayloadByMime h.2] at hp
    exact Bool.false_ne_true hp.symm

end Workbench.Browser.Upload

namespace Workbench.Studio

open Browser

/-- The file that the upload becomes is one of the project. -/
theorem file_mem_importAll (s : Studio) (before after : List Upload) {u : Upload}
    (hu : u.readable = true) :
    u.file (s.uploadId before) ∈ (s.importAll (before ++ u :: after)).1.project.files := by
  have hone : importOne (before.foldl importOne s) u =
      (before.foldl importOne s).take u.name u.content := by
    rw [importOne, Upload.read_of_readable hu]
  have hrest := (imports_importAll (importOne (before.foldl importOne s) u) after).files_eq
  rw [importAll, List.foldl_append, List.foldl_cons]
  rw [importAll] at hrest
  rw [hrest, hone]
  exact List.mem_append_left _ (Project.mem_add.mpr (.inr rfl))

/-- A file that was uploaded holds its text, as the browser reads it, if its kind is edited as text,
exactly if it is not misfiled. A misfiled one is of such a kind too, but it holds bytes, so that it cannot be edited and is
composed as if it were empty. -/
theorem editable_upload_is_text_iff (s : Studio) (before after : List Upload) {u : Upload}
    (hu : u.readable = true) :
    ∃ f ∈ (s.importAll (before ++ u :: after)).1.project.files,
      f.id = s.uploadId before ∧ f.name = u.name ∧
      f.kind = File.recognise u.name f.content.text? ∧
      ((f.kind.isText = true → f.content = .text u.text) ↔ ¬ u.IsMisfiled) ∧
      (u.IsMisfiled → f.kind.isText = true ∧
        f.content = .payload (Text.Base64.encode u.bytes) ∧ f.text = "") := by
  have hmisfiled := u.isMisfiled_iff (s.uploadId before)
  have hcontent : (u.file (s.uploadId before)).content = u.content := rfl
  refine ⟨_, file_mem_importAll s before after hu, rfl, rfl, rfl, ?_, fun hm => ?_⟩
  · rw [hmisfiled, not_and, Bool.not_eq_true]
    refine imp_congr_right fun _ => ?_
    rw [hcontent]
    cases hp : u.isPayload with
    | true =>
      rw [content_of_isPayload hp]
      exact iff_of_false Content.noConfusion (Bool.false_ne_true ·.symm)
    | false =>
      rw [Upload.content_of_not_isPayload hp]
      exact iff_of_true rfl rfl
  · obtain ⟨hk, -⟩ := hmisfiled.mp hm
    have hp : u.isPayload = true := Upload.isPayload_of_isPayloadByMime hm.2
    rw [File.text, hcontent, content_of_isPayload hp]
    exact ⟨hk, rfl, rfl⟩

/-- A file of data as browsers report it. -/
def reportedJson : Upload := ⟨"data.json", "application/json", [123, 125], "\x7b\x7d", true⟩

/-- The same file where no MIME type is known. -/
def unreportedJson : Upload := ⟨"data.json", "", [123, 125], "\x7b\x7d", true⟩

theorem editable_upload_is_text_iff_reportedJson :
    reportedJson.IsMisfiled ∧ ¬ unreportedJson.IsMisfiled ∧
    (∃ f ∈ (bare.importAll ([unreportedJson] ++ reportedJson :: [])).1.project.files,
      f.id = 1 ∧ f.kind.isText = true ∧ f.content = .payload "e30=") ∧
    ∃ f ∈ (bare.importAll ([] ++ unreportedJson :: [reportedJson])).1.project.files,
      f.id = 0 ∧ (f.kind.isText = true → f.content = .text "\x7b\x7d") := by
  have hm : reportedJson.IsMisfiled := ⟨by decide, by decide⟩
  have hn : ¬ unreportedJson.IsMisfiled := by
    rintro ⟨-, h⟩
    revert h
    decide
  obtain ⟨f, hf, hfid, -, -, -, hbytes⟩ :=
    editable_upload_is_text_iff bare [unreportedJson] [] (u := reportedJson) rfl
  obtain ⟨g, hg, hgid, -, -, htext, -⟩ :=
    editable_upload_is_text_iff bare [] [reportedJson] (u := unreportedJson) rfl
  obtain ⟨hk, hc, -⟩ := hbytes hm
  exact ⟨hm, hn, ⟨f, hf, hfid, hk, hc⟩, g, hg, hgid, htext.mpr hn⟩

/-- A file of an editable kind does not always hold a text. -/
theorem not_forall_editable_upload_is_text :
    ¬ ∀ (uploads : List Upload) (f : File), f ∈ (bare.importAll uploads).1.project.files →
      f.kind.isText = true → ∃ text, f.content = .text text := by
  intro h
  have hf : ⟨0, "data.json", none, .json, .payload "e30="⟩ ∈
      (bare.importAll [reportedJson]).1.project.files := by decide
  obtain ⟨text, ht⟩ := h _ _ hf rfl
  cases ht

end Workbench.Studio
