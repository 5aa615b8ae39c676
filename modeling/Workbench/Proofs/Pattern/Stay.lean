import Workbench.Proofs.Pattern.Parts

/-!
# A part of a text that stays

A rewritten text keeps a part of the text if, behind what is written for the text before it, the part
follows as it was (`Stays`). For a part that ends with a character before which every change shows this
is so exactly when each reading that touches the part is written as it is (`stays_replace_iff`).

The text before the part is rewritten by itself and so is looked at apart from the whole
(`Cuts.meetsAt`): a reading that runs over the seam is not found there, and no shorter one is found
in its place if the pattern is `Compact`.
-/

namespace Workbench.Pattern

variable {p : Pattern} {f : Hit → List Char} {last : Option Char} {s u w : List Char}
  {c : Char} {h : Hit} {ps : List Piece}

/-- The rewritten text begins as the text before `token` is rewritten, and `token` follows. -/
def Stays (pass : String → String) (before token after : String) : Prop :=
  (pass before).toList ++ token.toList <+: (pass (before ++ (token ++ after))).toList

/-- The reading takes in a character of `token`, which stands before `after`: it begins before the end
of `token` and ends behind its beginning. -/
def Hit.Touches (token after : String) (h : Hit) : Prop :=
  after.length < h.text.length + h.after.length ∧ h.after.length < token.length + after.length

/-- No reading that lies inside another one ends before it. -/
def Compact (p : Pattern) : Prop :=
  ∀ {last last' a v b rest rest'}, p.Reads last (a ++ (v ++ b)) rest → p.Reads last' v rest' → b = []

/-- Where a text and what is written at its beginning for a reading are the same up to a `c`, the
reading is written as it is. -/
def ShowsChange (p : Pattern) (f : Hit → List Char) (c : Char) : Prop :=
  ∀ {last s h b x}, p.readAt last s = some h → b ++ [c] <+: s → b ++ [c] <+: f h ++ x → f h = h.text

/-- A change shows if what is written begins with a text without a `c` that did not stand there. -/
theorem showsChange_of_head (hf : ∀ {last s h}, p.readAt last s = some h →
    f h = h.text ∨ ∃ m, m <+: f h ∧ c ∉ m ∧ ¬ m <+: s) : p.ShowsChange f c := by
  intro last s h b x hr hs hx
  refine (hf hr).resolve_right ?_
  rintro ⟨m, hm, hc, hn⟩
  refine hn (((List.prefix_or_prefix_of_prefix (hm.trans (List.prefix_append _ x)) hx).resolve_right
    fun h => ?_).trans hs)
  exact hc (h.subset (by simp))

/-- What begins with a text that did not stand there is not what was read. -/
theorem ne_text_of_head {m : List Char} (hr : p.readAt last s = some h) (hm : m <+: w)
    (hn : ¬ m <+: s) : w ≠ h.text := by
  rintro rfl
  exact hn (hm.trans ⟨h.after, (reads_of_readAt hr).1.symm⟩)

/-- A reading lies in the text that was cut. -/
theorem Cuts.length_le (hc : p.Cuts last s ps) (hm : .hit h ∈ ps) :
    h.text.length + h.after.length ≤ s.length := by
  induction hc with
  | done => exact absurd hm List.not_mem_nil
  | gap _ _ ih =>
    rcases List.mem_cons.mp hm with he | hm
    · exact absurd he Piece.noConfusion
    · exact Nat.le_succ_of_le (ih hm)
  | @hit last s h' ps hr _ ih =>
    have hs := congrArg List.length (reads_of_readAt hr).1
    rw [List.length_append] at hs
    rcases List.mem_cons.mp hm with he | hm
    · obtain rfl := Piece.hit.inj he
      omega
    · have := ih hm
      omega

/-- A reading ends behind the place where the text that was cut begins. -/
theorem Cuts.length_after_lt (ht : p.takesSome = true) (hc : p.Cuts last s ps) (hm : .hit h ∈ ps) :
    h.after.length < s.length := by
  obtain ⟨_, _, hr⟩ := hc.exists_readAt hm
  have := List.length_pos_iff.mpr ((reads_of_readAt hr).2.ne_nil ht)
  have := hc.length_le hm
  omega

theorem getLast?_of_cons {d e : Char} {t : List Char} (h : ∀ x, (d :: t).getLast? = some x → x = c)
    (he : t.getLast? = some e) : e = c := by
  refine h e ?_
  rw [List.getLast?_cons, he]
  rfl

/-- A text that ends with `c` is written at its place exactly when each reading that begins in it is
written as it is. -/
theorem Cuts.prefix_iff (hf : p.ShowsChange f c) (hc : p.Cuts last s ps) : ∀ {t v : List Char},
    s = t ++ v → (∀ d, t.getLast? = some d → d = c) →
      (t <+: ps.flatMap (Piece.write f) ↔
        ∀ h, .hit h ∈ ps → v.length < h.text.length + h.after.length → f h = h.text) := by
  -- behind the text no reading begins in it
  have hnil {last s ps} (hc : p.Cuts last s ps) : [] <+: ps.flatMap (Piece.write f) ↔
      ∀ h, .hit h ∈ ps → s.length < h.text.length + h.after.length → f h = h.text :=
    iff_of_true List.nil_prefix fun h hm hlt => absurd (hc.length_le hm) (by omega)
  induction hc with
  | done last =>
    intro t v hs _
    obtain ⟨rfl, rfl⟩ := List.append_eq_nil_iff.mp hs.symm
    exact hnil (.done last)
  | @gap last d s ps hr hc ih =>
    intro t v hs ht
    cases t with
    | nil =>
      obtain rfl : d :: s = v := hs
      exact hnil (.gap hr hc)
    | cons d' t =>
      obtain ⟨rfl, hsplit⟩ := List.cons.inj hs
      have hmem (h : Hit) : Piece.hit h ∈ Piece.gap d :: ps ↔ Piece.hit h ∈ ps := by simp
      simp only [hmem, List.flatMap_cons, Piece.write, List.singleton_append,
        List.prefix_cons_inj]
      exact ih hsplit fun _ => getLast?_of_cons ht
  | @hit last s hit ps hr hc ih =>
    intro t v hs ht
    rcases List.eq_nil_or_concat t with rfl | ⟨m, d, rfl⟩
    · obtain rfl : s = v := hs
      exact hnil (.hit hr hc)
    · rw [List.concat_eq_append] at hs ht ⊢
      obtain rfl := ht d (by simp)
      obtain ⟨hs', -⟩ := reads_of_readAt hr
      rw [List.flatMap_cons, Piece.write]
      by_cases hkept : f hit = hit.text
      · rcases List.append_eq_append_iff.mp (hs.symm.trans hs') with ⟨z, hz, hv⟩ | ⟨z, hz, hafter⟩
        · -- the text ends in the reading
          refine iff_of_true ?_ fun h hm hlt => ?_
          · rw [hkept, hz]
            exact (List.prefix_append _ z).trans (List.prefix_append _ _)
          · rcases List.mem_cons.mp hm with he | hm
            · rw [Piece.hit.inj he, hkept]
            · have := hc.length_le hm
              rw [hv, List.length_append] at hlt
              omega
        · rw [hz, hkept, List.prefix_append_right_inj, ih hafter fun e he => ?_]
          · refine ⟨fun hall h hm hlt => ?_, fun hall h hm => hall h (List.mem_cons_of_mem _ hm)⟩
            rcases List.mem_cons.mp hm with he | hm
            · rw [Piece.hit.inj he, hkept]
            · exact hall h hm hlt
          · refine ht e ?_
            rw [hz, List.getLast?_append, he, Option.some_or]
      · refine iff_of_false (fun h => hkept (hf hr ⟨v, hs.symm⟩ h)) fun hall => hkept ?_
        refine hall hit List.mem_cons_self ?_
        have hlength := congrArg List.length (hs.symm.trans hs')
        simp only [List.length_append, List.length_singleton] at hlength
        omega

/-- The pieces of `u ++ s` are `qs`, before the seam, and then `rs`. By itself `u` is written as `qs`
are, and then `b`, the part of `u` that a reading over the seam takes in. -/
def MeetsAt (p : Pattern) (f : Hit → List Char) (last : Option Char) (u s : List Char)
    (ps : List Piece) : Prop :=
  ∃ (qs rs qs' : List Piece) (b : List Char) (last' : Option Char), ps = qs ++ rs ∧
    p.Cuts last u qs' ∧ qs'.flatMap (Piece.write f) = qs.flatMap (Piece.write f) ++ b ∧
    p.Cuts last' (b ++ s) rs ∧ (∀ h, .hit h ∈ qs → s.length ≤ h.after.length) ∧
    ∀ h, .hit h ∈ rs → h.after.length < s.length

theorem Cuts.meetsAt_start (ht : p.takesSome = true) (hc : p.Cuts last s ps) :
    MeetsAt p f last [] s ps :=
  ⟨[], ps, [], [], last, rfl, .done last, rfl, hc, fun _ hm => absurd hm List.not_mem_nil,
    fun _ hm => hc.length_after_lt ht hm⟩

/-- Where a reading runs over the seam, nothing is found before it. -/
theorem Cuts.meetsAt_over (hcompact : p.Compact) (hr : p.readAt last (u ++ s) = some h)
    (hc : p.Cuts (h.text.getLast?.or last) h.after ps) (hlt : u.length < h.text.length) :
    MeetsAt p f last u s (.hit h :: ps) := by
  obtain ⟨hs, hread⟩ := reads_of_readAt hr
  obtain ⟨z, hz⟩ : u <+: h.text :=
    List.prefix_of_prefix_length_le ⟨s, rfl⟩ ⟨h.after, hs.symm⟩ (Nat.le_of_lt hlt)
  have hgaps : ∀ a b, u = a ++ b → b ≠ [] → p.readAt (a.getLast?.or last) (b ++ []) = none := by
    refine fun a b hab _ => readAt_eq_none.mpr fun v rest hb hv => ?_
    have hsplit : h.text = a ++ (v ++ (rest ++ z)) := by
      rw [← hz, hab, ← List.append_nil b, hb]
      simp only [List.append_assoc]
    rw [hsplit] at hread
    obtain ⟨-, rfl⟩ := List.append_eq_nil_iff.mp (hcompact hread hv)
    rw [← hz, List.append_nil] at hlt
    exact Nat.lt_irrefl _ hlt
  have hcuts := Cuts.gaps hgaps (.done _)
  rw [List.append_nil, List.append_nil] at hcuts
  refine ⟨[], .hit h :: ps, u.map .gap, u, last, rfl, hcuts, flatMap_write_gaps f u, .hit hr hc,
    fun _ hm => absurd hm List.not_mem_nil, fun h' hm => ?_⟩
  have hlength := congrArg List.length hs
  simp only [List.length_append] at hlength
  rcases List.mem_cons.mp hm with he | hm
  · rw [Piece.hit.inj he]
    omega
  · have := hc.length_le hm
    omega

/-- Any cut of `u ++ s` meets at the seam. -/
theorem Cuts.meetsAt (hp : p.Sectioned) (hcompact : p.Compact) (hf : DependsOnText f)
    (hc : p.Cuts last w ps) : ∀ {u s}, w = u ++ s → MeetsAt p f last u s ps := by
  induction hc with
  | done last =>
    intro u s hw
    obtain ⟨rfl, rfl⟩ := List.append_eq_nil_iff.mp hw.symm
    exact Cuts.meetsAt_start hp.takes (.done last)
  | @gap last c w ps hr hc ih =>
    intro u s hw
    cases u with
    | nil =>
      obtain rfl : c :: w = s := hw
      exact Cuts.meetsAt_start hp.takes (.gap hr hc)
    | cons d u =>
      obtain ⟨rfl, rfl⟩ := List.cons.inj hw
      obtain ⟨qs, rs, qs', b, last', rfl, hqs', hwrite, hrs, hleft, hright⟩ := ih rfl
      exact ⟨.gap c :: qs, rs, .gap c :: qs', b, last', rfl,
        .gap (readAt_eq_none_of_append hp.contained hr) hqs', congrArg (c :: ·) hwrite, hrs,
        fun h hm => hleft h (by simpa using hm), hright⟩
  | @hit last w hit ps hr hc ih =>
    intro u s hw
    obtain ⟨hs, -⟩ := reads_of_readAt hr
    subst hw
    rcases Nat.lt_or_ge u.length hit.text.length with hlt | hle
    · exact Cuts.meetsAt_over hcompact hr hc hlt
    · obtain ⟨v, rfl⟩ := List.prefix_of_prefix_length_le ⟨hit.after, hs.symm⟩ ⟨s, rfl⟩ hle
      have hafter : hit.after = v ++ s := by
        rw [List.append_assoc] at hs
        exact (List.append_cancel_left hs).symm
      obtain ⟨qs, rs, qs', b, last', rfl, hqs', hwrite, hrs, hleft, hright⟩ := ih hafter
      obtain ⟨alone, hralone, rfl⟩ := readAt_of_append hp.contained hr hle
      have halone : alone.after = v := List.append_cancel_right hafter
      have hsame : f alone = f (alone.extend s) :=
        hf _ _ rfl fun n => (groupText_extend hralone s n).symm
      refine ⟨.hit (alone.extend s) :: qs, rs, .hit alone :: qs', b, last', rfl,
        .hit hralone (halone ▸ hqs'), ?_, hrs, fun h hm => ?_, hright⟩
      · rw [List.flatMap_cons, List.flatMap_cons, hwrite, Piece.write, Piece.write, hsame,
          List.append_assoc]
      · rcases List.mem_cons.mp hm with he | hm
        · rw [Piece.hit.inj he, hafter, List.length_append]
          omega
        · exact hleft h hm

/-- A part of a text that ends with `c` stays exactly when each reading that touches it is written as
it is. -/
theorem stays_replace_iff (hp : p.Sectioned) (hcompact : p.Compact) (hf : DependsOnText f)
    (hshows : p.ShowsChange f c) {before token after : String}
    (htoken : token.toList.getLast? = some c) : Stays (p.replace f) before token after ↔
      ∀ h ∈ p.hits (before ++ (token ++ after)), h.Touches token after → f h = h.text := by
  have hcuts := cuts_cut hp.takes (before ++ (token ++ after)).toList
  have hsplit : (before ++ (token ++ after)).toList =
      before.toList ++ (token.toList ++ after.toList) := by simp
  obtain ⟨qs, rs, qs', b, last', hps, hqs', hwrite, hrs, hleft, hright⟩ :=
    hcuts.meetsAt hp hcompact hf hsplit
  have hlast : ∀ d, (b ++ token.toList).getLast? = some d → d = c := fun d hd => by
    rw [List.getLast?_append, htoken, Option.some_or] at hd
    exact (Option.some.inj hd).symm
  have hiff := hrs.prefix_iff hshows (List.append_assoc b token.toList after.toList).symm hlast
  have hlength : (token.toList ++ after.toList).length = token.length + after.length := by
    rw [List.length_append, String.length_toList, String.length_toList]
  rw [hlength] at hleft hright
  rw [Stays, toList_replace, toList_replace, hqs'.eq_cut hp.takes, hps, hwrite, List.flatMap_append,
    List.append_assoc, List.prefix_append_right_inj, hiff, String.length_toList]
  constructor
  · intro hall h hm ⟨hbegin, hend⟩
    rw [mem_hits, hps] at hm
    rcases List.mem_append.mp hm with hm | hm
    · exact absurd (hleft h hm) (by omega)
    · exact hall h hm hbegin
  · intro hall h hm hbegin
    refine hall h ?_ ⟨hbegin, hright h hm⟩
    rw [mem_hits, hps]
    exact List.mem_append_right qs hm

/-- The same where another condition tells which readings are written as they are. -/
theorem stays_replace_iff_of {keeps : Hit → Prop} (hp : p.Sectioned) (hcompact : p.Compact)
    (hf : DependsOnText f) (hshows : p.ShowsChange f c)
    (hkeeps : ∀ {last s h}, p.readAt last s = some h → (f h = h.text ↔ keeps h))
    {before token after : String} (htoken : token.toList.getLast? = some c) :
    Stays (p.replace f) before token after ↔
      ∀ h ∈ p.hits (before ++ (token ++ after)), h.Touches token after → keeps h := by
  refine (stays_replace_iff hp hcompact hf hshows htoken).trans ?_
  refine forall₂_congr fun h hm => forall_congr' fun _ => ?_
  obtain ⟨last, s, hr⟩ := (cuts_cut hp.takes _).exists_readAt (mem_hits.mp hm)
  exact hkeeps hr

end Workbench.Pattern
