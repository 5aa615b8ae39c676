import Workbench.Proofs.Pattern.Cut

/-!
# What groups read

A reading remembers what its groups read. A pattern without groups leaves what is remembered as it is
(`captures_of_mem_ends`), and a group adds the piece of text it stands for, which is one that the
pattern in the group can read (`isReadIn_of_mem_captures`). So whatever is collected from a text is a
text of the group's pattern (`reads_of_mem_collect`), and so is the text of a group that takes part in
every reading (`reads_groupText`).
-/

namespace Workbench.Pattern

variable {p q : Pattern} {cur e : Cursor} {c : Capture} {n : Nat}

theorem taken_close (n : Nat) : (e.close cur n).taken = e.taken := rfl

theorem captures_close (n : Nat) :
    (e.close cur n).captures = ⟨n, cur.rest, e.taken - cur.taken⟩ :: e.captures := rfl

theorem captures_of_mem_reads {ok : Char → Bool} (rest : List Char) :
    ∀ {taken last caps}, e ∈ reads ok taken last rest caps → e.captures = caps := by
  induction rest with
  | nil => intro taken last caps h; rw [List.mem_singleton.mp h]
  | cons c rest ih =>
    intro taken last caps h
    rcases List.mem_cons.mp h with rfl | h
    · rfl
    · split at h
      · exact ih h
      · simp at h

def groupless : Pattern → Bool
  | seq p q => groupless p && groupless q
  | either p q => groupless p && groupless q
  | group _ _ => false
  | _ => true

theorem captures_of_mem_ends (hp : groupless p = true) (he : e ∈ p.ends cur) :
    e.captures = cur.captures := by
  induction p generalizing cur e with
  | char ok =>
    rw [ends] at he
    split at he
    · simp at he
    · split at he
      · rw [List.mem_singleton.mp he]
        rfl
      · simp at he
  | many ok => exact captures_of_mem_reads _ (List.mem_reverse.mp he)
  | few ok => exact captures_of_mem_reads _ he
  | seq p q ihp ihq =>
    obtain ⟨hp, hq⟩ := Bool.and_eq_true _ _ ▸ hp
    obtain ⟨mid, hm, he⟩ := List.mem_flatMap.mp he
    rw [ihq hq he, ihp hp hm]
  | either p q ihp ihq =>
    obtain ⟨hp, hq⟩ := Bool.and_eq_true _ _ ▸ hp
    rcases List.mem_append.mp he with he | he
    · exact ihp hp he
    · exact ihq hq he
  | group n p ih => exact absurd hp Bool.false_ne_true
  | _ =>
    rw [ends] at he
    first
    | rw [List.mem_singleton.mp he]
    | split at he
      · rw [List.mem_singleton.mp he]
      · simp at he

theorem taken_le_of_mem_ends (he : e ∈ p.ends cur) : cur.taken ≤ e.taken := by
  obtain ⟨w, hw, -⟩ := reads_of_mem_ends p he
  have := hw.2.1
  omega

theorem taken_of_mem_ends_text {s : String} (he : e ∈ (text s).ends cur) :
    e.taken = cur.taken + s.length := by
  obtain ⟨w, hw, hr⟩ := reads_of_mem_ends (text s) he
  rw [reads_text] at hr
  rw [hw.2.1, hr, String.length_toList]

theorem taken_lt_of_mem_ends (hp : p.takesSome = true) (he : e ∈ p.ends cur) :
    cur.taken < e.taken := by
  obtain ⟨w, hw, hr⟩ := reads_of_mem_ends p he
  have := List.length_pos_iff.mpr (hr.ne_nil hp)
  have := hw.2.1
  omega

theorem length_groupText_le {h : Hit} {n : Nat} {c : Capture} (hn : n ≠ 0)
    (hc : h.captures.find? (·.number == n) = some c) : (h.groupText n).length ≤ c.length := by
  rw [Hit.groupText, Hit.group?, if_neg hn, hc, Option.map_some, Option.getD_some]
  exact List.length_take_le c.length c.start

/-! ## What a group read -/

/-- The patterns in the groups with this number. -/
def bodies (n : Nat) : Pattern → List Pattern
  | seq p q => bodies n p ++ bodies n q
  | either p q => bodies n p ++ bodies n q
  | group m p => if m = n then p :: bodies n p else bodies n p
  | _ => []

theorem bodies_eq_nil (hp : groupless p = true) : bodies n p = [] := by
  induction p with
  | seq p q ihp ihq =>
    obtain ⟨hp, hq⟩ := Bool.and_eq_true _ _ ▸ hp
    rw [bodies, ihp hp, ihq hq, List.append_nil]
  | either p q ihp ihq =>
    obtain ⟨hp, hq⟩ := Bool.and_eq_true _ _ ▸ hp
    rw [bodies, ihp hp, ihq hq, List.append_nil]
  | group m p ih => exact absurd hp Bool.false_ne_true
  | _ => rfl

/-- The text that was captured is one that the pattern in a group of this number can read. -/
def IsReadIn (p : Pattern) (c : Capture) : Prop :=
  ∃ q ∈ bodies c.number p, ∃ last rest, q.Reads last (c.start.take c.length) rest

theorem IsReadIn.of_subset (h : bodies c.number p ⊆ bodies c.number q) (hc : IsReadIn p c) :
    IsReadIn q c := by
  obtain ⟨body, hb, hr⟩ := hc
  exact ⟨body, h hb, hr⟩

theorem bodies_subset_group (n m : Nat) (p : Pattern) : bodies n p ⊆ bodies n (group m p) := by
  rw [bodies]
  split
  · exact List.subset_cons_self p _
  · exact List.Subset.refl _

theorem isReadIn_close (he : e ∈ p.ends cur) :
    IsReadIn (group n p) ⟨n, cur.rest, e.taken - cur.taken⟩ := by
  obtain ⟨w, ⟨hr, ht, -⟩, hw⟩ := reads_of_mem_ends p he
  refine ⟨p, ?_, cur.last, e.rest, ?_⟩
  · rw [bodies, if_pos rfl]
    exact List.mem_cons_self
  · show p.Reads cur.last (cur.rest.take (e.taken - cur.taken)) e.rest
    rw [ht, Nat.add_sub_cancel_left, hr, List.take_left]
    exact hw

/-- A capture was there before, or the pattern inside its group can read its text. -/
theorem isReadIn_of_mem_captures (p : Pattern) : ∀ {cur e : Cursor}, e ∈ p.ends cur →
    c ∈ e.captures → c ∈ cur.captures ∨ IsReadIn p c := by
  induction p with
  | seq p q ihp ihq =>
    intro cur e he hc
    obtain ⟨mid, hm, he⟩ := List.mem_flatMap.mp he
    rcases ihq he hc with hc | hc
    · exact (ihp hm hc).imp_right (·.of_subset (List.subset_append_left _ _))
    · exact Or.inr (hc.of_subset (List.subset_append_right _ _))
  | either p q ihp ihq =>
    intro cur e he hc
    rcases List.mem_append.mp he with he | he
    · exact (ihp he hc).imp_right (·.of_subset (List.subset_append_left _ _))
    · exact (ihq he hc).imp_right (·.of_subset (List.subset_append_right _ _))
  | group m p ih =>
    intro cur e he hc
    obtain ⟨d, hd, rfl⟩ := List.mem_map.mp he
    -- Here alone a capture is added: the one of the group that closes.
    rcases List.mem_cons.mp hc with rfl | hc
    · exact Or.inr (isReadIn_close hd)
    · exact (ih hd hc).imp_right (·.of_subset (bodies_subset_group _ m p))
  | _ =>
    intro cur e he hc
    rw [captures_of_mem_ends rfl he] at hc
    exact Or.inl hc

/-- A capture is no longer than the text that it begins with. -/
theorem length_le_of_mem_captures (p : Pattern) : ∀ {cur e : Cursor}, e ∈ p.ends cur →
    c ∈ e.captures → c ∈ cur.captures ∨ c.length ≤ c.start.length := by
  induction p with
  | seq p q ihp ihq =>
    intro cur e he hc
    obtain ⟨mid, hm, he⟩ := List.mem_flatMap.mp he
    exact (ihq he hc).elim (ihp hm) .inr
  | either p q ihp ihq =>
    intro cur e he hc
    exact (List.mem_append.mp he).elim (ihp · hc) (ihq · hc)
  | group m p ih =>
    intro cur e he hc
    obtain ⟨d, hd, rfl⟩ := List.mem_map.mp he
    rcases List.mem_cons.mp hc with rfl | hc
    · obtain ⟨w, ⟨hr, ht, -⟩, -⟩ := reads_of_mem_ends p hd
      refine Or.inr ?_
      show d.taken - cur.taken ≤ cur.rest.length
      rw [ht, hr, List.length_append]
      omega
    · exact ih hd hc
  | _ =>
    intro cur e he hc
    rw [captures_of_mem_ends rfl he] at hc
    exact Or.inl hc

/-- What a group read is a text that the pattern in the group can read. -/
theorem reads_of_group? {h : Hit} {last : Option Char} {s w : List Char}
    (hr : p.readAt last s = some h) (hn : n ≠ 0) (hg : h.group? n = some w) :
    ∃ q ∈ bodies n p, ∃ last rest, q.Reads last w rest := by
  rw [Hit.group?, if_neg hn] at hg
  obtain ⟨c, hc, rfl⟩ := Option.map_eq_some_iff.mp hg
  obtain ⟨e, he, -, -, hcap⟩ := readAt_eq_some hr
  have hmem : c ∈ e.captures := hcap ▸ List.mem_of_find?_eq_some hc
  have hnum := List.find?_some hc
  obtain rfl : c.number = n := beq_iff_eq.mp hnum
  exact (isReadIn_of_mem_captures p (List.mem_of_mem_head? he) hmem).resolve_left
    List.not_mem_nil

/-- What is collected for a group is a text that the pattern in the group can read. -/
theorem reads_of_mem_collect (hp : p.takesSome = true) (hn : n ≠ 0) {s t : String}
    (ht : t ∈ p.collect n s) : ∃ q ∈ bodies n p, ∃ last rest, q.Reads last t.toList rest := by
  obtain ⟨h, hh, hg⟩ := List.mem_filterMap.mp ht
  obtain ⟨w, hw, rfl⟩ := Option.map_eq_some_iff.mp hg
  obtain ⟨last, text, hr⟩ := (cuts_cut hp s.toList).exists_readAt (mem_hits.mp hh)
  rw [String.toList_ofList]
  exact reads_of_group? hr hn hw

/-! ## Groups that always take part -/

/-- A group with this number takes part in every reading. -/
def closes (n : Nat) : Pattern → Bool
  | seq p q => closes n p || closes n q
  | either p q => closes n p && closes n q
  | group m p => m == n || closes n p
  | _ => false

/-- The last group reads what stands between the text before it and the text read behind it. -/
theorem exists_of_mem_ends_group (hp : groupless p = true) (hq : groupless q = true)
    (he : e ∈ (seq (group n p) q).ends cur) : ∃ v w, cur.rest = v ++ (w ++ e.rest) ∧
      p.Reads cur.last v (w ++ e.rest) ∧ q.Reads (v.getLast?.or cur.last) w e.rest ∧
      e.captures = ⟨n, cur.rest, v.length⟩ :: cur.captures := by
  obtain ⟨mid, hm, he⟩ := List.mem_flatMap.mp he
  obtain ⟨inner, hinner, rfl⟩ := List.mem_map.mp hm
  obtain ⟨v, ⟨hrest, htaken, hlast⟩, hv⟩ := reads_of_mem_ends p hinner
  obtain ⟨w, ⟨hrest', -, -⟩, hw⟩ := reads_of_mem_ends q he
  have hrest' : inner.rest = w ++ e.rest := hrest'
  have hw : q.Reads inner.last w e.rest := hw
  rw [hrest'] at hrest hv
  rw [hlast] at hw
  refine ⟨v, w, hrest, hv, hw, ?_⟩
  rw [captures_of_mem_ends hq he, captures_close, captures_of_mem_ends hp hinner, htaken,
    Nat.add_sub_cancel_left]

/-- What was remembered stays remembered. -/
theorem mem_captures_of_mem_ends (p : Pattern) : ∀ {cur e : Cursor}, e ∈ p.ends cur →
    c ∈ cur.captures → c ∈ e.captures := by
  induction p with
  | seq p q ihp ihq =>
    intro cur e he hc
    obtain ⟨mid, hm, he⟩ := List.mem_flatMap.mp he
    exact ihq he (ihp hm hc)
  | either p q ihp ihq =>
    intro cur e he hc
    exact (List.mem_append.mp he).elim (ihp · hc) (ihq · hc)
  | group m p ih =>
    intro cur e he hc
    obtain ⟨d, hd, rfl⟩ := List.mem_map.mp he
    exact List.mem_cons_of_mem _ (ih hd hc)
  | _ =>
    intro cur e he hc
    rwa [captures_of_mem_ends rfl he]

theorem exists_mem_captures (p : Pattern) (hp : closes n p = true) :
    ∀ {cur e : Cursor}, e ∈ p.ends cur → ∃ c ∈ e.captures, c.number = n := by
  induction p with
  | seq p q ihp ihq =>
    intro cur e he
    obtain ⟨mid, hm, he⟩ := List.mem_flatMap.mp he
    rcases Bool.or_eq_true _ _ ▸ hp with hp | hq
    · obtain ⟨c, hc, hn⟩ := ihp hp hm
      exact ⟨c, mem_captures_of_mem_ends q he hc, hn⟩
    · exact ihq hq he
  | either p q ihp ihq =>
    intro cur e he
    obtain ⟨hp, hq⟩ := Bool.and_eq_true _ _ ▸ hp
    exact (List.mem_append.mp he).elim (ihp hp) (ihq hq)
  | group m p ih =>
    intro cur e he
    obtain ⟨d, hd, rfl⟩ := List.mem_map.mp he
    rcases Bool.or_eq_true _ _ ▸ hp with hm | hp
    · exact ⟨_, List.mem_cons_self, eq_of_beq hm⟩
    · obtain ⟨c, hc, hn⟩ := ih hp hd
      exact ⟨c, List.mem_cons_of_mem _ hc, hn⟩
  | _ => exact absurd hp Bool.false_ne_true

/-- The text of a group that always takes part is one that the pattern in it can read. -/
theorem reads_groupText {h : Hit} {last : Option Char} {s : List Char}
    (hr : p.readAt last s = some h) (hn : n ≠ 0) (hp : closes n p = true) :
    ∃ q ∈ bodies n p, ∃ last rest, q.Reads last (h.groupText n) rest := by
  obtain ⟨e, he, -, -, hcap⟩ := readAt_eq_some hr
  obtain ⟨c, hc, hnum⟩ := exists_mem_captures p hp (List.mem_of_mem_head? he)
  have hsome : (h.group? n).isSome = true := by
    rw [Hit.group?, if_neg hn, Option.isSome_map, List.find?_isSome, hcap]
    exact ⟨c, hc, beq_iff_eq.mpr hnum⟩
  obtain ⟨w, hw⟩ := Option.isSome_iff_exists.mp hsome
  rw [Hit.groupText, hw, Option.getD_some]
  exact reads_of_group? hr hn hw

end Workbench.Pattern
