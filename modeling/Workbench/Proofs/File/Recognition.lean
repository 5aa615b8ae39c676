import Workbench.File.Recognition
import Workbench.Proofs.Pattern.Cut
import Workbench.Proofs.Text.Occurrence

/-!
# The kind by the name alone

An empty text tells nothing beyond the name, but a file with an empty text and a file whose text is
not known yet are not always of one kind: with a text at hand, the two endings of module names are
looked for in the whole name, and without one only the extension counts.

* `recognise_empty_eq_iff`: the two kinds agree except for names that end with `.esm.js`, whose
  extension is that of scripts, and for files called `.mjs`, which have no extension.
* `role_recognise_empty_eq_iff`: for these names the roles on a page differ as well.
-/

namespace Workbench.File

open Text

/-- The name ends like that of a module, but its extension does not say so. -/
def IsUntoldModule (name : String) : Prop :=
  endsWith (asciiLower name) ".esm.js" = true ∨
    (lastSegment name.toList).map Char.toLower = ".mjs".toList

/-! ## Ends of names -/

theorem endsWith_asciiLower_iff {s tail : String} :
    endsWith (asciiLower s) tail = true ↔
      ∃ u v, s.toList = u ++ v ∧ v.map Char.toLower = tail.toList := by
  rw [endsWith, toList_asciiLower, List.isSuffixOf_iff_suffix]
  constructor
  · rintro ⟨t, ht⟩
    obtain ⟨u, v, hs, -, hv⟩ := List.map_eq_append_iff.mp ht.symm
    exact ⟨u, v, hs, hv⟩
  · rintro ⟨u, v, hs, hv⟩
    rw [hs, List.map_append, hv]
    exact List.suffix_append _ _

theorem lastSegment_append (u : List Char) {v : List Char} (h : '/' ∉ v) :
    lastSegment (u ++ v) = lastSegment u ++ v := by
  have hv : ∀ c ∈ v.reverse, (c != '/') = true := fun c hc => by
    rw [bne_iff_ne]
    exact fun he => h (he ▸ List.mem_reverse.mp hc)
  rw [lastSegment, List.reverse_append, List.takeWhile_append_of_pos hv, List.reverse_append,
    List.reverse_reverse, lastSegment]

theorem not_mem_of_map_toLower {c : Char} {v w : List Char} (hv : v.map Char.toLower = w)
    (hc : c.toLower ∉ w) : c ∉ v :=
  fun h => hc (hv ▸ List.mem_map_of_mem h)

theorem lastSegment_suffix (path : List Char) : lastSegment path <:+ path := by
  rw [lastSegment, ← List.reverse_prefix, List.reverse_reverse]
  exact List.takeWhile_prefix _

/-- What stands behind the last point is the extension, if something stands before the point in the
last segment. -/
theorem extension?_of_ending {s : String} {u v ext : List Char} (hs : s.toList = u ++ v)
    (hv : v.map Char.toLower = '.' :: ext) (hpoint : '.' ∉ ext) (hslash : '/' ∉ ext)
    (hne : ext ≠ []) :
    extension? s = if lastSegment u = [] then none else some (String.ofList ext) := by
  have hlast : lastSegment s.toList = lastSegment u ++ v := by
    rw [hs, lastSegment_append u (not_mem_of_map_toLower hv (by simpa using hslash))]
  cases v with
  | nil => simp at hv
  | cons c w =>
    obtain ⟨hc, hw⟩ := List.cons.inj hv
    obtain rfl : c = '.' := eq_of_toLower_eq (by decide) hc
    have hin : ∀ c ∈ w.reverse, (c != '.') = true := fun c hc => by
      rw [bne_iff_ne]
      exact fun he => not_mem_of_map_toLower (c := '.') hw hpoint (he ▸ List.mem_reverse.mp hc)
    have hrev : (lastSegment s.toList).reverse = w.reverse ++ '.' :: (lastSegment u).reverse := by
      rw [hlast]
      simp
    have htake : (w.reverse ++ '.' :: (lastSegment u).reverse).takeWhile (· != '.') =
        w.reverse := by
      rw [List.takeWhile_append_of_pos hin]
      simp
    have hdrop : (w.reverse ++ '.' :: (lastSegment u).reverse).dropWhile (· != '.') =
        '.' :: (lastSegment u).reverse := by
      rw [List.dropWhile_append_of_pos hin]
      simp
    have hlower : asciiLower (String.ofList w) = String.ofList ext := by
      rw [asciiLower, String.toList_ofList, hw]
    have hw' : w ≠ [] := fun h => hne (by rw [← hw, h, List.map_nil])
    rw [extension?, hrev, htake, hdrop, List.reverse_reverse, hlower]
    cases hu : (lastSegment u).reverse with
    | nil =>
      rw [if_pos (List.reverse_eq_nil_iff.mp hu)]
      rfl
    | cons d rest =>
      have hu' : lastSegment u ≠ [] := fun h => by simp [h] at hu
      simp [hw', hu']

theorem kindOfName_of_ending {s : String} {u v ext : List Char} (hs : s.toList = u ++ v)
    (hv : v.map Char.toLower = '.' :: ext) (hpoint : '.' ∉ ext) (hslash : '/' ∉ ext)
    (hne : ext ≠ []) :
    kindOfName s =
      if lastSegment u = [] then .binary else Kind.ofExtension (String.ofList ext) := by
  rw [kindOfName, extension?_of_ending hs hv hpoint hslash hne]
  by_cases hu : lastSegment u = []
  · rw [if_pos hu, if_pos hu]
  · rw [if_neg hu, if_neg hu]

/-- The extension of a name that ends with `.esm.js` is that of scripts. -/
theorem kindOfName_of_endsWith_esm {s : String}
    (h : endsWith (asciiLower s) ".esm.js" = true) : kindOfName s = .script := by
  obtain ⟨u, v, hs, hv⟩ := endsWith_asciiLower_iff.mp h
  obtain ⟨a, b, rfl, ha, hb⟩ := List.map_eq_append_iff.mp
    (show v.map Char.toLower = ".esm".toList ++ ".js".toList from hv)
  rw [← List.append_assoc] at hs
  have hu : lastSegment (u ++ a) ≠ [] := by
    rw [lastSegment_append u (not_mem_of_map_toLower ha (by decide))]
    rintro he
    rw [(List.append_eq_nil_iff.mp he).2] at ha
    cases ha
  have hext : b.map Char.toLower = '.' :: ['j', 's'] := hb
  have hk : Kind.ofExtension (String.ofList ['j', 's']) = .script := by decide
  rw [kindOfName_of_ending hs hext (by decide) (by decide) (by decide), if_neg hu, hk]

/-- The extension of a name that ends with `.mjs` is that of modules, unless this is all of the last
segment: then there is none. -/
theorem kindOfName_of_endsWith_mjs {s : String} (h : endsWith (asciiLower s) ".mjs" = true) :
    kindOfName s =
      if (lastSegment s.toList).map Char.toLower = ".mjs".toList then .binary
      else .moduleScript := by
  obtain ⟨u, v, hs, hv⟩ := endsWith_asciiLower_iff.mp h
  have hlast : lastSegment s.toList = lastSegment u ++ v := by
    rw [hs, lastSegment_append u (not_mem_of_map_toLower hv (by decide))]
  have hiff : (lastSegment s.toList).map Char.toLower = ".mjs".toList ↔ lastSegment u = [] := by
    rw [hlast, List.map_append, hv]
    simp
  have hext : v.map Char.toLower = '.' :: ['m', 'j', 's'] := hv
  have hk : Kind.ofExtension (String.ofList ['m', 'j', 's']) = .moduleScript := by decide
  rw [kindOfName_of_ending hs hext (by decide) (by decide) (by decide), hk]
  simp only [hiff]

/-! ## Without a text and with the empty one -/

/-- The empty text makes a file a module if its name ends like that of one, and nothing else. -/
theorem isModule_empty_iff (name : String) :
    isModule name "" = true ↔
      endsWith (asciiLower name) ".mjs" = true ∨ endsWith (asciiLower name) ".esm.js" = true := by
  rw [isModule, Pattern.occursIn_empty (by decide), Bool.or_false, Bool.or_eq_true]

theorem inspect_empty (name : String) (fallback : Kind) :
    inspect name "" fallback = if isModule name "" then .moduleScript else fallback := by
  rw [inspect, Pattern.occursIn_empty (by decide), Pattern.occursIn_empty (by decide),
    if_neg Bool.false_ne_true, if_neg Bool.false_ne_true]

/-- Only the kinds that leave room for doubt give way to that of modules. -/
theorem recognise_empty (name : String) :
    recognise name (some "") =
      if isModule name "" = true ∧ kindOfName name ∈ [Kind.script, .plain, .binary] then
        .moduleScript
      else kindOfName name := by
  unfold recognise
  simp only [inspect_empty]
  by_cases hm : isModule name "" = true
  · cases kindOfName name <;> simp [hm]
  · cases kindOfName name <;> simp [hm]

theorem recognise_empty_eq_kindOfName_iff (name : String) :
    recognise name (some "") = kindOfName name ↔
      ¬ (isModule name "" = true ∧ kindOfName name ∈ [Kind.script, .plain, .binary]) := by
  rw [recognise_empty]
  split
  · rename_i h
    refine iff_of_false (fun he => ?_) (not_not_intro h)
    rw [← he] at h
    simp at h
  · rename_i h
    exact iff_of_true rfl h

theorem endsWith_mjs_of_lastSegment {s : String}
    (h : (lastSegment s.toList).map Char.toLower = ".mjs".toList) :
    endsWith (asciiLower s) ".mjs" = true := by
  obtain ⟨u, hu⟩ := lastSegment_suffix s.toList
  exact endsWith_asciiLower_iff.mpr ⟨u, _, hu.symm, h⟩

theorem recognise_empty_eq_iff (name : String) :
    recognise name (some "") = kindOfName name ↔ ¬ IsUntoldModule name := by
  rw [recognise_empty_eq_kindOfName_iff, isModule_empty_iff, not_iff_not]
  constructor
  · rintro ⟨hmjs | hesm, hk⟩
    · rw [kindOfName_of_endsWith_mjs hmjs] at hk
      split at hk
      · rename_i hseg
        exact .inr hseg
      · simp at hk
    · exact .inl hesm
  · rintro (hesm | hseg)
    · rw [kindOfName_of_endsWith_esm hesm]
      exact ⟨.inr hesm, by simp⟩
    · have hmjs := endsWith_mjs_of_lastSegment hseg
      rw [kindOfName_of_endsWith_mjs hmjs, if_pos hseg]
      exact ⟨.inl hmjs, by simp⟩

theorem role_eq_moduleScript_iff {k : Kind} : k.role = .moduleScript ↔ k = .moduleScript := by
  cases k <;> decide

theorem role_eq_classicScript_iff {k : Kind} : k.role = .classicScript ↔ k = .script := by
  cases k <;> decide

/-- Where the kinds differ, so do the roles when a page is composed. -/
theorem role_recognise_empty_eq_iff (name : String) :
    (recognise name (some "")).role = (kindOfName name).role ↔ ¬ IsUntoldModule name := by
  rw [← recognise_empty_eq_iff]
  refine ⟨fun h => ?_, congrArg Kind.role⟩
  rw [recognise_empty] at h ⊢
  split
  · rename_i hc
    rw [if_pos hc] at h
    exact (role_eq_moduleScript_iff.mp h.symm).symm
  · rfl

end Workbench.File
