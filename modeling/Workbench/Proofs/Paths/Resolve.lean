import Workbench.Paths.Resolve
import Workbench.Proofs.File.Recognition

/-!
# The last segment of a path

A reference whose last segment is a name, not empty and not `.` or `..`, leads to a path with this last
segment, wherever it is followed from (`lastSegment_resolve`). So whether a path ends with some text
without a slash can be told from the reference (`endsWith_resolve`).
-/

namespace Workbench.Paths

open File Text

variable {path s : List Char}

/-- The last segment of a reference is a name. -/
def NamesFile (reference : String) : Prop :=
  lastSegment reference.toList ∉ [[], ['.'], ['.', '.']]

instance (reference : String) : Decidable (NamesFile reference) :=
  inferInstanceAs (Decidable (_ ∉ _))

/-! ## Segments -/

theorem lastSegment_of_not_mem (h : '/' ∉ s) : lastSegment s = s :=
  lastSegment_append [] h

theorem lastSegment_slash (x y : List Char) : lastSegment (x ++ '/' :: y) = lastSegment y := by
  have hstop : ('/' :: x.reverse).takeWhile (· != '/') = [] := rfl
  rw [lastSegment, lastSegment, List.reverse_append, List.reverse_cons, List.append_assoc,
    List.takeWhile_append, List.singleton_append, hstop]
  split
  · rename_i h
    rw [List.append_nil, (List.takeWhile_prefix _).eq_of_length h]
  · rfl

theorem join_cons {ss : List (List Char)} (h : ss ≠ []) : join (s :: ss) = s ++ '/' :: join ss := by
  cases ss with
  | nil => exact absurd rfl h
  | cons t ss => rfl

theorem join_segments (path : List Char) : join (segments path) = path := by
  induction path with
  | nil => rfl
  | cons c rest ih =>
    rw [segments]
    split
    · rename_i hc
      rw [join_cons (segments_ne_nil rest), ih, hc]
      rfl
    · cases hs : segments rest with
      | nil => exact absurd hs (segments_ne_nil rest)
      | cons s ss =>
        rw [hs] at ih
        cases ss with
        | nil => exact congrArg (c :: ·) ih
        | cons t ss => exact congrArg (c :: ·) ih

theorem slash_not_mem_of_mem_segments (hs : s ∈ segments path) : '/' ∉ s := by
  induction path generalizing s with
  | nil =>
    rw [List.mem_singleton.mp hs]
    exact List.not_mem_nil
  | cons c rest ih =>
    rw [segments] at hs
    split at hs
    · rcases List.mem_cons.mp hs with rfl | hs
      · exact List.not_mem_nil
      · exact ih hs
    · rename_i hc
      cases hseg : segments rest with
      | nil => exact absurd hseg (segments_ne_nil rest)
      | cons t ss =>
        rw [hseg] at hs ih
        rcases List.mem_cons.mp hs with rfl | hs
        · exact List.not_mem_cons_of_ne_of_not_mem (Ne.symm hc) (ih List.mem_cons_self)
        · exact ih (List.mem_cons_of_mem t hs)

theorem lastSegment_join (ss : List (List Char)) (h : '/' ∉ s) : lastSegment (join (ss ++ [s])) = s := by
  induction ss with
  | nil => exact lastSegment_of_not_mem h
  | cons t ss ih => rw [List.cons_append, join_cons (by simp), lastSegment_slash, ih]

theorem exists_segments_eq (path : List Char) :
    ∃ ss, segments path = ss ++ [lastSegment path] := by
  obtain h | ⟨ss, s, h⟩ := List.eq_nil_or_concat (segments path)
  · exact absurd h (segments_ne_nil path)
  · rw [List.concat_eq_append] at h
    have hmem : s ∈ segments path := by simp [h]
    have hs := slash_not_mem_of_mem_segments hmem
    refine ⟨ss, ?_⟩
    rw [h, ← join_segments path, h, lastSegment_join ss hs]

theorem slash_not_mem_lastSegment (path : List Char) : '/' ∉ lastSegment path := by
  obtain ⟨ss, h⟩ := exists_segments_eq path
  have hmem : lastSegment path ∈ segments path := by simp [h]
  exact slash_not_mem_of_mem_segments hmem

/-! ## Following a reference -/

theorem lastSegment_resolveChars {reference : List Char}
    (h : lastSegment reference ∉ [[], ['.'], ['.', '.']]) (base : List Char) :
    lastSegment (resolveChars base reference) = lastSegment reference := by
  unfold resolveChars
  split
  · exact (lastSegment_slash [] _).symm
  · obtain ⟨ss, hs⟩ := exists_segments_eq reference
    have hfollow (place : List (List Char)) :
        follow place (lastSegment reference) = place ++ [lastSegment reference] := by
      simp only [List.mem_cons, List.not_mem_nil, or_false, not_or] at h
      rw [follow, if_neg h.2.2, if_neg (not_or.mpr ⟨h.2.1, h.1⟩)]
    rw [hs, List.foldl_append, List.foldl_cons, List.foldl_nil, hfollow,
      lastSegment_join _ (slash_not_mem_lastSegment reference)]

theorem endsWith_asciiLower_lastSegment {tail : String} (ht : '/' ∉ tail.toList) (s : String) :
    endsWith (asciiLower s) tail = true ↔
      ∃ u v, lastSegment s.toList = u ++ v ∧ v.map Char.toLower = tail.toList := by
  rw [endsWith_asciiLower_iff]
  constructor
  · rintro ⟨u, v, hs, hv⟩
    have hslash : '/' ∉ v := not_mem_of_map_toLower hv ht
    exact ⟨lastSegment u, v, by rw [hs, lastSegment_append u hslash], hv⟩
  · rintro ⟨u, v, hs, hv⟩
    obtain ⟨x, hx⟩ := lastSegment_suffix s.toList
    exact ⟨x ++ u, v, by rw [← hx, hs, List.append_assoc], hv⟩

/-- A path that a reference leads to ends as the reference does. -/
theorem endsWith_resolve {base reference tail : String} (h : NamesFile reference)
    (ht : '/' ∉ tail.toList) :
    endsWith (asciiLower (resolve base reference)) tail = true ↔
      endsWith (asciiLower reference) tail = true := by
  rw [endsWith_asciiLower_lastSegment ht, endsWith_asciiLower_lastSegment ht, resolve,
    String.toList_ofList, lastSegment_resolveChars h]

end Workbench.Paths
