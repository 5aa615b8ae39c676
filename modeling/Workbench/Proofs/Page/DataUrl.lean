import Workbench.Paths.Table
import Workbench.Proofs.Markup.External
import Workbench.Proofs.Text.Base64

/-!
# Data URLs

The URL of an entry is read back with `dataOf?`: the text behind the first comma is the base64 text
of the entry (`dataOf?_dataUrl`). An entry whose content stands for some bytes therefore has a URL
that carries exactly these bytes. No MIME type and no base64 text holds a quote or a bracket, so the
URL stays in one piece wherever it is put between quotes (`isPlain_of_mem_dataUrl`). A reference that
begins like such a URL is external (`isExternal_of_dataScheme`).
-/

namespace Workbench

open Text

/-- The bytes that a content stands for: those of the base64 text, or the text in UTF-8. -/
def Content.StandsFor : Content → List UInt8 → Prop
  | text s, bytes => s.toUTF8.data.toList = bytes
  | payload s, bytes => s = Base64.encode bytes

/-- The content can be written in base64: it is a text, or a payload of characters of base64. -/
def Content.IsWellEncoded : Content → Prop
  | text _ => True
  | payload s => ∀ c ∈ s.toList, (Base64.value? c).isSome = true ∨ c = '='

theorem isBase64Char_of_mem_encode {bytes : List UInt8} {c : Char}
    (h : c ∈ (Base64.encode bytes).toList) : (Base64.value? c).isSome = true ∨ c = '=' := by
  by_contra hn
  rw [not_or, Bool.not_eq_true, Option.isSome_eq_false_iff, Option.isNone_iff_eq_none] at hn
  exact Base64.not_mem_encode hn.1 hn.2 bytes h

theorem Content.StandsFor.isWellEncoded {content : Content} {bytes : List UInt8}
    (h : content.StandsFor bytes) : content.IsWellEncoded := by
  cases content with
  | text s => trivial
  | payload s =>
    obtain rfl : s = Base64.encode bytes := h
    exact fun c hc => isBase64Char_of_mem_encode hc

theorem PathTable.Entry.isBase64Char_of_mem {e : Entry} {c : Char} (h : e.content.IsWellEncoded)
    (hc : c ∈ e.base64.toList) : (Base64.value? c).isSome = true ∨ c = '=' := by
  unfold Entry.base64 at hc
  cases hcontent : e.content with
  | text s =>
    rw [hcontent] at hc
    exact isBase64Char_of_mem_encode hc
  | payload s =>
    rw [hcontent] at h hc
    exact h c hc

theorem PathTable.Entry.base64_eq {e : Entry} {bytes : List UInt8}
    (h : e.content.StandsFor bytes) : e.base64 = Base64.encode bytes := by
  unfold Entry.base64
  cases hc : e.content with
  | text s =>
    rw [hc] at h
    exact congrArg Base64.encode h
  | payload s =>
    rw [hc] at h
    exact h

namespace Page

/-- The bytes that a `data:` URL in base64 holds. -/
def dataOf? (url : String) : Option (List UInt8) :=
  let head := url.toList.takeWhile (· != ',')
  if "data:".toList.isPrefixOf head && ";base64".toList.isSuffixOf head then
    Base64.decode? (String.ofList ((url.toList.dropWhile (· != ',')).drop 1))
  else none

/-- How a `data:` URL begins. -/
def dataScheme : List Char := ['d', 'a', 't', 'a', ':']

theorem prefix_trim_of_dataScheme {reference : String} (h : dataScheme <+: reference.toList) :
    dataScheme <+: (trim reference).toList :=
  prefix_trim h ⟨'d', _, rfl, by decide⟩ fun c hc => by
    obtain rfl : ':' = c := Option.some.inj hc
    decide

/-- What begins like a `data:` URL is external. -/
theorem isExternal_of_dataScheme {reference : String} (h : dataScheme <+: reference.toList) :
    Markup.isExternal reference = true := by
  obtain ⟨y, hy⟩ := h
  have hleads : Markup.LeadsOut dataScheme := ⟨"data:", by decide, by decide⟩
  rw [← String.ofList_toList (s := reference), Markup.isExternal_iff]
  exact .inr ⟨[], dataScheme, y, hy.symm, List.forall_mem_nil _, hleads⟩

/-- A character of a MIME type. -/
def isMimeChar (c : Char) : Bool := c.isAlphanum || ['/', '+', '-', '.'].contains c

/-- A character that is neither a quote nor a round bracket. -/
def isPlain (c : Char) : Bool := c != '"' && c != '\'' && c != '(' && c != ')'

theorem all_mime (kind : Kind) : kind.mime.toList.all isMimeChar = true := by
  cases kind <;> decide

theorem all_mimeOf (path : String) (kind : Kind) :
    (File.mimeOf path kind).toList.all isMimeChar = true := by
  unfold File.mimeOf
  split
  case h_19 => exact all_mime kind
  all_goals decide

/-- What stands in the URL of an entry before the comma. -/
def urlHead (e : PathTable.Entry) : String := "data:" ++ File.mimeOf e.path e.kind ++ ";base64"

theorem toList_urlHead (e : PathTable.Entry) : (urlHead e).toList =
    "data:".toList ++ (File.mimeOf e.path e.kind).toList ++ ";base64".toList := by
  rw [urlHead, String.toList_append, String.toList_append]

theorem toList_dataUrl (e : PathTable.Entry) :
    e.dataUrl.toList = (urlHead e).toList ++ ',' :: e.base64.toList := by
  have hcomma : ";base64,".toList = ";base64".toList ++ [','] := rfl
  rw [PathTable.Entry.dataUrl, toList_urlHead, String.toList_append, String.toList_append,
    String.toList_append, hcomma]
  simp only [List.append_assoc, List.singleton_append]

theorem dataScheme_prefix_dataUrl (e : PathTable.Entry) : dataScheme <+: e.dataUrl.toList := by
  rw [toList_dataUrl, toList_urlHead, List.append_assoc, List.append_assoc]
  exact List.prefix_append _ _

theorem exists_dataUrl_cons (e : PathTable.Entry) : ∃ u, e.dataUrl.toList = 'd' :: u := by
  rw [toList_dataUrl, toList_urlHead]
  exact ⟨_, rfl⟩

theorem mem_urlHead {e : PathTable.Entry} {c : Char} (h : c ∈ (urlHead e).toList) :
    c ∈ "data:;base64".toList ∨ isMimeChar c = true := by
  rw [toList_urlHead] at h
  rcases List.mem_append.mp h with h | h
  · rcases List.mem_append.mp h with h | h
    · exact .inl (List.mem_append_left ";base64".toList h)
    · exact .inr (List.all_eq_true.mp (all_mimeOf e.path e.kind) c h)
  · exact .inl (List.mem_append_right "data:".toList h)

/-- Reading the URL of an entry gives what its base64 text stands for. -/
theorem dataOf?_dataUrl (e : PathTable.Entry) : dataOf? e.dataUrl = Base64.decode? e.base64 := by
  have hcomma : ∀ c ∈ (urlHead e).toList, (c != ',') = true := by
    intro c hc
    rw [bne_iff_ne]
    rintro rfl
    exact absurd (mem_urlHead hc) (by decide)
  have hhead : "data:".toList.isPrefixOf (urlHead e).toList &&
      ";base64".toList.isSuffixOf (urlHead e).toList := by
    rw [Bool.and_eq_true, List.isPrefixOf_iff_prefix, List.isSuffixOf_iff_suffix, toList_urlHead]
    exact ⟨(List.prefix_append _ _).trans (List.prefix_append _ _), List.suffix_append _ _⟩
  have htake : e.dataUrl.toList.takeWhile (· != ',') = (urlHead e).toList := by
    rw [toList_dataUrl, List.takeWhile_append_of_pos hcomma,
      List.takeWhile_cons_of_neg (by decide), List.append_nil]
  have hdrop : e.dataUrl.toList.dropWhile (· != ',') = ',' :: e.base64.toList := by
    rw [toList_dataUrl, List.dropWhile_append_of_pos hcomma,
      List.dropWhile_cons_of_neg (by decide)]
  unfold dataOf?
  rw [htake, hdrop, if_pos hhead, List.drop_succ_cons, List.drop_zero, String.ofList_toList]

/-- An entry that stands for some bytes has a URL that holds them. -/
theorem dataOf?_of_standsFor {e : PathTable.Entry} {bytes : List UInt8}
    (h : e.content.StandsFor bytes) : dataOf? e.dataUrl = some bytes := by
  rw [dataOf?_dataUrl, PathTable.Entry.base64_eq h, Base64.decode?_encode]

/-- The character stands in no part of a URL: neither in the fixed texts, nor in a MIME type, nor in a
text in base64. -/
def IsForeign (c : Char) : Prop :=
  c ∉ "data:;base64,=".toList ∧ isMimeChar c = false ∧ Base64.value? c = none

instance (c : Char) : Decidable (IsForeign c) :=
  inferInstanceAs (Decidable (_ ∧ _ ∧ _))

theorem isForeign_of_not_isPlain {c : Char} (h : isPlain c = false) : IsForeign c := by
  simp only [isPlain, Bool.and_eq_false_iff, bne_eq_false_iff_eq] at h
  rcases h with ((rfl | rfl) | rfl) | rfl <;> decide

theorem not_mem_dataUrl {e : PathTable.Entry} {c : Char} (h : e.content.IsWellEncoded)
    (hn : IsForeign c) : c ∉ e.dataUrl.toList := by
  intro hc
  obtain ⟨hfixed, hmime, hdigit⟩ := hn
  rw [toList_dataUrl, List.mem_append, List.mem_cons] at hc
  rcases hc with hc | rfl | hc
  · rcases mem_urlHead hc with hc | hc
    · exact hfixed (List.mem_append_left [',', '='] hc)
    · exact Bool.false_ne_true (hmime.symm.trans hc)
  · exact hfixed (by decide)
  · rcases e.isBase64Char_of_mem h hc with hc | rfl
    · rw [hdigit] at hc
      cases hc
    · exact hfixed (by decide)

/-- The URL stays in one piece between quotes, and no `url(...)` begins or ends in it. -/
theorem isPlain_of_mem_dataUrl {e : PathTable.Entry} (h : e.content.IsWellEncoded) :
    ∀ c ∈ e.dataUrl.toList, isPlain c = true := fun c hc => by
  by_contra hn
  exact not_mem_dataUrl h (isForeign_of_not_isPlain (Bool.eq_false_iff.mpr hn)) hc

end Page
end Workbench
