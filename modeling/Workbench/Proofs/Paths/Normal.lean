import Workbench.Proofs.Paths.Resolve

/-!
# References one after the other

A relative reference is followed segment by segment, and the place reached is a list of segments
without empty ones. A path that ends with a slash has this list as its directory (`directory_join`), so
a reference can be followed in two steps. Enough steps up lead to the root from any place
(`foldl_follow_parents`), and names are followed by appending them (`foldl_follow_names`).

`resolve_composes` collects what this says of resolved paths: references compose, steps up beyond the
root are lost, and no slash stands at either end of the path or behind another one.
-/

namespace Workbench.Paths

variable {s x y base reference : List Char} {place ss : List (List Char)}

/-! ## Paths and their segments -/

/-- A reference that is followed from the directory of the file that holds it. -/
def IsRelative (reference : String) : Prop := reference.toList.head? ≠ some '/'

instance (reference : String) : Decidable (IsRelative reference) :=
  inferInstanceAs (Decidable (_ ≠ _))

/-- The two segments that are no names. -/
def dots : List (List Char) := [['.'], ['.', '.']]

/-- A path made of names between single slashes; the empty path is made of none. -/
def IsNormal (path : String) : Prop :=
  path = "" ∨ ∀ s ∈ segments path.toList, s ≠ [] ∧ s ∉ dots

/-- No slash stands at either end of the path or behind another one. -/
structure HasNoStraySlash (path : String) : Prop where
  leading : ¬ ['/'] <+: path.toList
  trailing : ¬ ['/'] <:+ path.toList
  doubled : ¬ ['/', '/'] <:+: path.toList

/-- A list of segments that a walk can reach. -/
def IsPlace (place : List (List Char)) : Prop := ∀ s ∈ place, s ≠ [] ∧ '/' ∉ s

theorem segments_append_slash (x y : List Char) :
    segments (x ++ '/' :: y) = segments x ++ segments y := by
  induction x with
  | nil => simp [segments]
  | cons c x ih =>
    rw [List.cons_append, segments, segments, ih]
    by_cases hc : c = '/'
    · rw [if_pos hc, if_pos hc, List.cons_append]
    · rw [if_neg hc, if_neg hc]
      cases hs : segments x with
      | nil => exact absurd hs (segments_ne_nil x)
      | cons t ts => rfl

theorem segments_of_not_mem (h : '/' ∉ s) : segments s = [s] := by
  obtain ⟨ss, hs⟩ := exists_segments_eq s
  rw [lastSegment_of_not_mem h] at hs
  rcases ss with _ | ⟨t, ts⟩
  · exact hs
  · -- a second segment would follow a slash
    have hj := join_segments s
    rw [hs, List.cons_append, join_cons (by simp)] at hj
    exact absurd (hj ▸ List.mem_append_right t List.mem_cons_self) h

theorem segments_join (hne : ss ≠ []) (h : ∀ s ∈ ss, '/' ∉ s) : segments (join ss) = ss := by
  induction ss with
  | nil => exact absurd rfl hne
  | cons s ss ih =>
    have hs := h s List.mem_cons_self
    by_cases hss : ss = []
    · subst hss
      exact segments_of_not_mem hs
    · rw [join_cons hss, segments_append_slash, segments_of_not_mem hs,
        ih hss fun t ht => h t (List.mem_cons_of_mem s ht), List.singleton_append]

/-- A stray slash has an empty segment beside it. -/
theorem hasNoStraySlash_of_segments {path : String} (h : ∀ s ∈ segments path.toList, s ≠ []) :
    HasNoStraySlash path := by
  refine ⟨?_, ?_, ?_⟩
  · rintro ⟨y, hy⟩
    refine h [] ?_ rfl
    rw [← hy, List.singleton_append, segments, if_pos rfl]
    exact List.mem_cons_self
  · rintro ⟨x, hx⟩
    refine h [] ?_ rfl
    rw [← hx, segments_append_slash]
    exact List.mem_append_right _ List.mem_cons_self
  · rintro ⟨x, y, hxy⟩
    refine h [] ?_ rfl
    rw [← hxy, List.append_assoc, List.cons_append, List.singleton_append, segments_append_slash,
      segments, if_pos rfl]
    exact List.mem_append_right _ List.mem_cons_self

/-! ## Places -/

theorem IsPlace.segments_join (hp : IsPlace place) (hne : place ≠ []) :
    segments (join place) = place :=
  Paths.segments_join hne fun s hs => (hp s hs).2

theorem IsPlace.mem_segments_join (hp : IsPlace place) (hs : s ∈ segments (join place)) :
    s ∈ place ∨ join place = [] := by
  by_cases hne : place = []
  · exact .inr (hne ▸ rfl)
  · exact .inl (hp.segments_join hne ▸ hs)

theorem IsPlace.hasNoStraySlash (hp : IsPlace place) :
    HasNoStraySlash (String.ofList (join place)) := by
  by_cases hne : place = []
  · subst hne
    constructor <;> decide
  · refine hasNoStraySlash_of_segments fun s hs => ?_
    rw [String.toList_ofList, hp.segments_join hne] at hs
    exact (hp s hs).1

theorem isPlace_directory (base : List Char) : IsPlace (directory base) := by
  intro s hs
  obtain ⟨hs, hne⟩ := List.mem_filter.mp hs
  refine ⟨by simpa using hne, ?_⟩
  exact slash_not_mem_of_mem_segments (List.dropLast_subset _ hs)

/-- With a slash behind it, a place is the directory of what follows. -/
theorem directory_join (hp : IsPlace place) : directory (join place ++ ['/']) = place := by
  have hsegments : segments [] = [[]] := rfl
  rw [directory, segments_append_slash, hsegments, List.dropLast_concat]
  by_cases hne : place = []
  · subst hne
    rfl
  · rw [hp.segments_join hne, List.filter_eq_self]
    intro s hs
    simpa using (hp s hs).1

/-! ## Walks -/

theorem isPlace_follow (hp : IsPlace place) (hs : '/' ∉ s) : IsPlace (follow place s) := by
  intro t ht
  rw [follow] at ht
  split at ht
  · exact hp t (List.dropLast_subset place ht)
  · split at ht
    · exact hp t ht
    · rename_i hne
      rcases List.mem_append.mp ht with ht | ht
      · exact hp t ht
      · rw [List.mem_singleton.mp ht]
        exact ⟨fun h => hne (.inr h), hs⟩

theorem isPlace_foldl_follow (hp : IsPlace place) (hs : ∀ s ∈ ss, '/' ∉ s) :
    IsPlace (ss.foldl follow place) := by
  induction ss generalizing place with
  | nil => exact hp
  | cons s ss ih =>
    exact ih (isPlace_follow hp (hs s List.mem_cons_self)) fun t ht =>
      hs t (List.mem_cons_of_mem s ht)

theorem not_mem_dots_of_mem_follow {t : List Char} (hp : ∀ s ∈ place, s ∉ dots)
    (ht : t ∈ follow place s) : t ∉ dots := by
  rw [follow] at ht
  split at ht
  · exact hp t (List.dropLast_subset place ht)
  · rename_i hup
    split at ht
    · exact hp t ht
    · rename_i hhere
      rcases List.mem_append.mp ht with ht | ht
      · exact hp t ht
      · rw [List.mem_singleton.mp ht, dots, List.mem_pair, not_or]
        exact ⟨fun h => hhere (.inl h), hup⟩

theorem not_mem_dots_of_mem_foldl (ss : List (List Char)) (hp : ∀ s ∈ place, s ∉ dots) :
    ∀ s ∈ ss.foldl follow place, s ∉ dots := by
  induction ss generalizing place with
  | nil => exact hp
  | cons s ss ih => exact ih fun t => not_mem_dots_of_mem_follow hp

/-- Names are followed by appending them. -/
theorem foldl_follow_names (h : ∀ s ∈ ss, s ≠ [] ∧ s ∉ dots) :
    ss.foldl follow place = place ++ ss := by
  induction ss generalizing place with
  | nil => exact (List.append_nil place).symm
  | cons s ss ih =>
    obtain ⟨hne, hdots⟩ := h s List.mem_cons_self
    rw [dots, List.mem_pair, not_or] at hdots
    have hfollow : follow place s = place ++ [s] := by
      rw [follow, if_neg hdots.2, if_neg (not_or.mpr ⟨hdots.1, hne⟩)]
    rw [List.foldl_cons, hfollow, ih fun t ht => h t (List.mem_cons_of_mem s ht),
      List.append_assoc, List.singleton_append]

/-- As many steps up as the place has segments lead to the root, and more do no harm. -/
theorem foldl_follow_parents {n : Nat} (h : place.length ≤ n) :
    (List.replicate n ['.', '.']).foldl follow place = [] := by
  induction n generalizing place with
  | zero => exact List.length_eq_zero_iff.mp (Nat.le_zero.mp h)
  | succ n ih =>
    have hup : follow place ['.', '.'] = place.dropLast := if_pos rfl
    rw [List.replicate_succ, List.foldl_cons, hup]
    refine ih ?_
    rw [List.length_dropLast]
    omega

/-! ## Following references -/

theorem resolveChars_eq (h : reference.head? ≠ some '/') :
    resolveChars base reference = join ((segments reference).foldl follow (directory base)) := by
  unfold resolveChars
  split
  · exact absurd rfl h
  · rfl

theorem isPlace_walk (base reference : List Char) :
    IsPlace ((segments reference).foldl follow (directory base)) :=
  isPlace_foldl_follow (isPlace_directory base) fun _ => slash_not_mem_of_mem_segments

theorem resolveChars_append_slash (hne : x ≠ []) (hx : x.head? ≠ some '/')
    (hy : y.head? ≠ some '/') :
    resolveChars base (x ++ '/' :: y) = resolveChars (resolveChars base x ++ ['/']) y := by
  have hxy : (x ++ '/' :: y).head? ≠ some '/' := by
    rwa [List.head?_append_of_ne_nil x hne]
  rw [resolveChars_eq hxy, resolveChars_eq hx, resolveChars_eq hy, segments_append_slash,
    List.foldl_append, directory_join (isPlace_walk base x)]

theorem segments_parents (n : Nat) (t : List Char) :
    segments ((List.replicate n ['.', '.', '/']).flatten ++ t) =
      List.replicate n ['.', '.'] ++ segments t := by
  induction n with
  | zero => rfl
  | succ n ih =>
    have hcut : ['.', '.', '/'] ++ (List.replicate n ['.', '.', '/']).flatten ++ t =
        ['.', '.'] ++ '/' :: ((List.replicate n ['.', '.', '/']).flatten ++ t) := rfl
    rw [List.replicate_succ, List.flatten_cons, hcut, segments_append_slash, ih,
      List.replicate_succ]
    rfl

theorem head?_parents {t : List Char} (n : Nat) (ht : t.head? ≠ some '/') :
    ((List.replicate n ['.', '.', '/']).flatten ++ t).head? ≠ some '/' := by
  cases n with
  | zero => exact ht
  | succ n => simp [List.replicate_succ]

theorem foldl_follow_normal {t : String} (ht : IsNormal t) :
    join ((segments t.toList).foldl follow []) = t.toList := by
  rcases ht with rfl | ht
  · rfl
  · rw [foldl_follow_names ht, List.nil_append, join_segments]

theorem IsNormal.isRelative {t : String} (ht : IsNormal t) : IsRelative t := by
  intro h
  rcases ht with rfl | ht
  · exact absurd h (by decide)
  · obtain ⟨rest, hrest⟩ := List.head?_eq_some_iff.mp h
    refine (ht [] ?_).1 rfl
    rw [hrest, segments, if_pos rfl]
    exact List.mem_cons_self

theorem resolveChars_parents {n : Nat} {t : String} (hn : (directory base).length ≤ n)
    (ht : IsNormal t) :
    resolveChars base ((List.replicate n ['.', '.', '/']).flatten ++ t.toList) = t.toList := by
  rw [resolveChars_eq (head?_parents n ht.isRelative), segments_parents, List.foldl_append,
    foldl_follow_parents hn, foldl_follow_normal ht]

/-- The text that goes up `n` times. -/
def parents (n : Nat) : String := String.join (List.replicate n "../")

theorem toList_parents (n : Nat) :
    (parents n).toList = (List.replicate n ['.', '.', '/']).flatten := by
  have hup : "../".toList = ['.', '.', '/'] := rfl
  rw [parents, String.toList_join, List.flatMap_def, List.map_replicate, hup]

/-- Following a reference is following its parts one after the other. From a directory of at most `n`
segments, a normal path behind `n` steps up leads to this path. Whatever relative reference is followed,
no stray slash is in the path, and no segment of dots unless the directory had one. -/
theorem resolve_composes :
    (∀ base r₁ r₂ : String, r₁ ≠ "" → IsRelative r₁ → IsRelative r₂ →
      resolve base (r₁ ++ "/" ++ r₂) = resolve (resolve base r₁ ++ "/") r₂) ∧
    (∀ (base t : String) (n : Nat), (directory base.toList).length ≤ n → IsNormal t →
      resolve base (parents n ++ t) = t) ∧
    ∀ base reference : String, IsRelative reference →
      HasNoStraySlash (resolve base reference) ∧
      ((∀ s ∈ directory base.toList, s ∉ dots) →
        ∀ s ∈ segments (resolve base reference).toList, s ∉ dots) := by
  refine ⟨?_, ?_, ?_⟩
  · intro base r₁ r₂ hne h₁ h₂
    have hslash : (r₁ ++ "/" ++ r₂).toList = r₁.toList ++ '/' :: r₂.toList := by simp
    have hbase : (resolve base r₁ ++ "/").toList = resolveChars base.toList r₁.toList ++ ['/'] := by
      simp [resolve]
    rw [resolve, hslash, resolveChars_append_slash (by simpa using hne) h₁ h₂, ← hbase]
    rfl
  · intro base t n hn ht
    rw [resolve, String.toList_append, toList_parents, resolveChars_parents hn ht,
      String.ofList_toList]
  · intro base reference hr
    have hp := isPlace_walk base.toList reference.toList
    have hresolve : resolve base reference =
        String.ofList (join ((segments reference.toList).foldl follow (directory base.toList))) := by
      rw [resolve, resolveChars_eq hr]
    rw [hresolve, String.toList_ofList]
    refine ⟨hp.hasNoStraySlash, fun hd s hs => ?_⟩
    rcases hp.mem_segments_join hs with hs | hnil
    · exact not_mem_dots_of_mem_foldl _ hd s hs
    · rw [hnil] at hs
      rw [List.mem_singleton.mp hs]
      decide

/-- A reference with an empty segment, an idle dot and a step up that crosses the seam. -/
theorem resolve_composes_atSeam :
    resolve "pages/blog/index.html" ("img//.." ++ "/" ++ "../a.png") =
      resolve (resolve "pages/blog/index.html" "img//.." ++ "/") "../a.png" ∧
    resolve "pages/blog/index.html" (parents 3 ++ "img/a.png") = "img/a.png" ∧
    HasNoStraySlash (resolve "pages/blog/index.html" "./img//../") ∧
    ∀ s ∈ segments (resolve "pages/blog/index.html" "./img//../").toList, s ∉ dots := by
  obtain ⟨hcompose, hclimb, hnormal⟩ := resolve_composes
  have hdirectory : ∀ s ∈ directory "pages/blog/index.html".toList, s ∉ dots := by decide
  have hslashes := hnormal "pages/blog/index.html" "./img//../" (by decide)
  refine ⟨?_, ?_, hslashes.1, hslashes.2 hdirectory⟩
  · exact hcompose "pages/blog/index.html" "img//.." "../a.png" (by decide) (by decide) (by decide)
  · exact hclimb "pages/blog/index.html" "img/a.png" 3 (by decide) (.inr (by decide))

end Workbench.Paths
