import Workbench.Proofs.Studio.Kinds

/-!
# Editing and renaming files

An edit gives a file a text and a rename gives it a name, and either recognises the file anew by what
the other one wrote: an edit by the name that the file has, a rename by the text, if there is one. So
on one file the order of the two does not matter (`File.renameAs_edit`), also where the file holds
bytes, which the rename leaves alone and the edit replaces. Changes of different files never meet
(`Project.update_comm`).

`edits_and_renames_commute` states it for the workbench, where a blank name changes nothing, and draws
the conclusion for histories: as long as files are only edited and renamed, an edit is without effect
once the same file is edited again, whatever happens in between.
-/

namespace Workbench

namespace File

theorem renameAs_of_text {f : File} {t : String} (h : f.content = .text t) (name : String) :
    f.renameAs name = { f.rename name with kind := recognise name (some t) } := by
  rw [renameAs, h]

theorem renameAs_of_payload {f : File} {b : String} (h : f.content = .payload b) (name : String) :
    f.renameAs name = f.rename name := by
  rw [renameAs, h]

/-- Whichever comes second recognises the file by the new name and the new text. -/
theorem renameAs_edit (f : File) (t name : String) :
    (f.edit t).renameAs name = (f.renameAs name).edit t := by
  have hedited : (f.edit t).content = .text t := rfl
  rw [renameAs_of_text hedited]
  cases hc : f.content with
  | text s =>
    rw [renameAs_of_text hc]
    rfl
  | payload b =>
    -- The rename keeps the kind of the bytes, and the edit gives that of the text.
    rw [renameAs_of_payload hc]
    rfl

theorem edit_edit (f : File) (t u : String) : (f.edit t).edit u = f.edit u := rfl

end File

namespace Project

/-- Changes commute that commute on the file that both reach, if there is one. -/
theorem update_comm (p : Project) {i j : Nat} (c d : File → File) (hc : ∀ f, (c f).id = f.id)
    (hd : ∀ f, (d f).id = f.id) (h : i = j → ∀ f, d (c f) = c (d f)) :
    (p.update i c).update j d = (p.update j d).update i c := by
  simp only [update, List.map_map]
  congr 1
  refine List.map_congr_left fun f _ => ?_
  simp only [Function.comp_apply]
  by_cases hi : f.id = i
  · subst hi
    by_cases hj : f.id = j
    · subst hj
      simp [hc, hd, h rfl]
    · simp [hc, hj]
  · by_cases hj : f.id = j
    · subst hj
      simp [hd, hi]
    · simp [hi, hj]

/-- Of two changes of one file only the second counts if it leaves nothing of the first. -/
theorem update_update (p : Project) (i : Nat) (c d : File → File) (hc : ∀ f, (c f).id = f.id)
    (h : ∀ f, d (c f) = d f) : (p.update i c).update i d = p.update i d := by
  simp only [update, List.map_map]
  congr 1
  refine List.map_congr_left fun f _ => ?_
  simp only [Function.comp_apply]
  by_cases hi : f.id = i
  · subst hi
    simp [hc, h]
  · simp [hi]

end Project

namespace Studio

open Browser

/-- The action edits or renames a file. -/
def Action.revises : Action → Bool
  | .edit _ _ => true
  | .rename _ _ => true
  | _ => false

/-! ## Two actions -/

theorem act_edit_rename (s : Studio × Tabs) (i j : Nat) (t name : String) :
    act (act s (.edit i t)) (.rename j name) = act (act s (.rename j name)) (.edit i t) := by
  simp only [act, rename]
  split
  · rfl
  · simp only [edit]
    rw [Project.update_comm _ (·.edit t) (·.renameAs (Text.trim name)) (fun _ => rfl)
      (id_renameAs · _) fun _ f => f.renameAs_edit t _]

theorem act_edit_edit (s : Studio × Tabs) (i : Nat) (t u : String) :
    act (act s (.edit i t)) (.edit i u) = act s (.edit i u) := by
  simp only [act, edit]
  rw [Project.update_update _ i (·.edit t) (·.edit u) (fun _ => rfl) fun f => f.edit_edit t u]

theorem act_edit_edit_of_ne {i j : Nat} (h : i ≠ j) (s : Studio × Tabs) (t u : String) :
    act (act s (.edit i t)) (.edit j u) = act (act s (.edit j u)) (.edit i t) := by
  simp only [act, edit]
  rw [Project.update_comm _ (·.edit t) (·.edit u) (fun _ => rfl) (fun _ => rfl)
    fun hij => absurd hij h]

/-! ## Histories of edits and renames -/

/-- The edit moves behind the others, up to the next edit of its file, which leaves nothing of it. -/
theorem foldl_act_edit {i : Nat} (t : String) {history : List Action} {s : Studio × Tabs}
    (hr : ∀ a ∈ history, a.revises = true) (he : ∃ u, Action.edit i u ∈ history) :
    history.foldl act (act s (.edit i t)) = history.foldl act s := by
  induction history generalizing s with
  | nil =>
    obtain ⟨u, hu⟩ := he
    exact absurd hu List.not_mem_nil
  | cons a history ih =>
    rw [List.forall_mem_cons] at hr
    obtain ⟨u, hu⟩ := he
    rw [List.foldl_cons, List.foldl_cons]
    by_cases hnext : ∃ v, a = .edit i v
    · obtain ⟨v, rfl⟩ := hnext
      rw [act_edit_edit]
    · have hlater : ∃ v, Action.edit i v ∈ history := by
        refine ⟨u, (List.mem_cons.mp hu).resolve_left fun hv => ?_⟩
        exact hnext ⟨u, hv.symm⟩
      have hswap : act (act s (.edit i t)) a = act (act s a) (.edit i t) := by
        cases a with
        | edit j v =>
          have hij : i ≠ j := by
            rintro rfl
            exact hnext ⟨v, rfl⟩
          exact act_edit_edit_of_ne hij s t v
        | rename j name => exact act_edit_rename s i j t name
        | _ => exact absurd hr.1 Bool.false_ne_true
      rw [hswap]
      exact ih hr.2 hlater

/-- Editing and renaming files commute, and the last edit of a file wins, also over renames and edits
of other files in between. -/
theorem edits_and_renames_commute (s : Studio × Tabs) (i : Nat) (t : String) :
    (∀ (j : Nat) (name : String),
      act (act s (.edit i t)) (.rename j name) = act (act s (.rename j name)) (.edit i t)) ∧
    (∀ u : String, act (act s (.edit i t)) (.edit i u) = act s (.edit i u)) ∧
    ∀ history : List Action, (∀ a ∈ history, a.revises = true) →
      (∃ u, Action.edit i u ∈ history) →
      history.foldl act (act s (.edit i t)) = history.foldl act s :=
  ⟨fun j name => act_edit_rename s i j t name, fun u => act_edit_edit s i t u,
    fun _ hr he => foldl_act_edit t hr he⟩

/-- An image becomes a text after all, and a module by its second name. -/
def rewritten : List Action := [.rename 0 " main.js ", .rename 0 " ", .edit 0 "export default 1"]

theorem edits_and_renames_commute_rewritten :
    (∀ a ∈ rewritten, a.revises = true) ∧ (∃ u, Action.edit 0 u ∈ rewritten) ∧
    (rewritten.foldl act (act (bare.run [.take "logo.png" (.payload "AA==")])
      (.edit 0 "p\x7b\x7d"))).1.project.files =
      [⟨0, "main.js", some "logo.png", .moduleScript, .text "export default 1"⟩] := by
  have hr : ∀ a ∈ rewritten, a.revises = true := by simp [rewritten, Action.revises]
  have he : ∃ u, Action.edit 0 u ∈ rewritten := ⟨"export default 1", by simp [rewritten]⟩
  refine ⟨hr, he, ?_⟩
  rw [(edits_and_renames_commute _ 0 _).2.2 rewritten hr he]
  decide

end Studio
end Workbench
