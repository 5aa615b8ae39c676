import Mathlib.Data.List.Induction
import Workbench.Proofs.File.Recognition
import Workbench.Proofs.Project.Numbering
import Workbench.Studio.Basic

/-!
# The kinds of text files through a history

A file that was read, edited or renamed has the kind that its name and its text make it. A file that
was added by its name alone has the kind that the name stands for, and keeps it, with the empty
text, until it is edited or renamed (`Untouched`). The invariant `Typed` says both, action by action.

`kind_eq_recognise_iff` draws the conclusion for histories of the new workbench: the kind of a text
file is that of its name and its text, unless the file is untouched since it was added by name and
its name is that of a module without saying so by its extension. There, and only there, the file
also has the wrong role when the page is composed.
-/

namespace Workbench.Studio

open Browser

variable {s : Studio} {p : Project} {loose loose' : Nat → Prop}

/-- The action recognises the file with this id anew. -/
@[simp] def Action.retypes (id : Nat) : Action → Bool
  | .edit i _ => i == id
  | .rename i name => i == id && !(Text.trim name).isEmpty
  | _ => false

/-- The action adds a file by its name alone. -/
@[simp] def Action.addsByName : Action → Bool
  | .add name => !(Text.trim name).isEmpty
  | _ => false

/-- The file with this id was added by its name alone and not recognised anew since. -/
def Untouched (s : Studio) (history : List Action) (id : Nat) : Prop :=
  ∃ before a after, history = before ++ a :: after ∧ a.addsByName = true ∧
    (s.run before).1.project.nextId = id ∧ ∀ b ∈ after, b.retypes id = false

theorem not_untouched_nil (id : Nat) : ¬ s.Untouched [] id := by
  rintro ⟨before, a, after, h, -⟩
  simp at h

theorem untouched_concat {history : List Action} {a : Action} {id : Nat} :
    s.Untouched (history ++ [a]) id ↔
      s.Untouched history id ∧ a.retypes id = false ∨
        a.addsByName = true ∧ (s.run history).1.project.nextId = id := by
  constructor
  · rintro ⟨before, b, after, h, hb, hid, hafter⟩
    rcases List.eq_nil_or_concat after with rfl | ⟨after, c, rfl⟩
    · obtain ⟨rfl, hc⟩ := List.append_inj' h rfl
      obtain rfl : a = b := by simpa using hc
      exact .inr ⟨hb, hid⟩
    · rw [List.concat_eq_append, ← List.cons_append, ← List.append_assoc] at h
      obtain ⟨rfl, hc⟩ := List.append_inj' h rfl
      obtain rfl : a = c := by simpa using hc
      refine .inl ⟨⟨before, b, after, rfl, hb, hid, fun d hd => hafter d ?_⟩, hafter a ?_⟩
      · simp [hd]
      · simp
  · rintro (⟨⟨before, b, after, rfl, hb, hid, hafter⟩, ha⟩ | ⟨ha, hid⟩)
    · refine ⟨before, b, after ++ [a], by simp, hb, hid, fun c hc => ?_⟩
      rcases List.mem_append.mp hc with hc | hc
      · exact hafter c hc
      · rwa [List.mem_singleton.mp hc]
    · exact ⟨history, a, [], rfl, ha, hid, by simp⟩

/-! ## The invariant -/

/-- Files with a loose id are empty and have the kind that their name stands for; all other text
files have the kind that their name and their text make them. -/
structure Typed (loose : Nat → Prop) (p : Project) : Prop where
  numbered : p.Numbered
  below : ∀ id, loose id → id < p.nextId
  byName : ∀ f ∈ p.files, loose f.id → f.content = .text "" ∧ f.kind = File.kindOfName f.name
  byText : ∀ f ∈ p.files, ¬ loose f.id → ∀ t, f.content = .text t →
    f.kind = File.recognise f.name (some t)

theorem Typed.congr (h : Typed loose p) (hl : ∀ id, loose' id ↔ loose id) : Typed loose' p := by
  obtain rfl : loose' = loose := funext fun id => propext (hl id)
  exact h

theorem Typed.setMode (h : Typed loose p) (mode : Mode) : Typed loose (p.setMode mode) :=
  ⟨h.numbered.setMode mode, h.below, h.byName, h.byText⟩

theorem Typed.remove (h : Typed loose p) (id : Nat) : Typed loose (p.remove id) where
  numbered := h.numbered.remove id
  below := h.below
  byName f hf := h.byName f (Project.mem_of_mem_remove hf)
  byText f hf := h.byText f (Project.mem_of_mem_remove hf)

/-- A file added by its name alone becomes loose. -/
theorem Typed.addByName (h : Typed loose p) (name : String) :
    Typed (fun id => loose id ∨ p.nextId = id)
      (p.add name (File.kindOfName name) (.text "")) := by
  refine ⟨h.numbered.add _ _ _, ?_, fun f hf hl => ?_, fun f hf hl => ?_⟩
  · rintro id (hid | rfl)
    · exact Nat.lt_succ_of_lt (h.below id hid)
    · exact Nat.lt_succ_self _
  · rcases Project.mem_add.mp hf with hf | rfl
    · exact h.byName f hf (hl.resolve_right (Nat.ne_of_gt (h.numbered.below f hf)))
    · exact ⟨rfl, rfl⟩
  · rcases Project.mem_add.mp hf with hf | rfl
    · exact h.byText f hf fun hid => hl (.inl hid)
    · exact absurd (.inr rfl) hl

/-- A file added with a content is recognised at once. -/
theorem Typed.addRead (h : Typed loose p) (name : String) (content : Content) :
    Typed loose (p.add name (File.recognise name content.text?) content) := by
  refine ⟨h.numbered.add _ _ _, fun id hid => Nat.lt_succ_of_lt (h.below id hid),
    fun f hf hl => ?_, fun f hf hl t ht => ?_⟩
  · rcases Project.mem_add.mp hf with hf | rfl
    · exact h.byName f hf hl
    · exact absurd (h.below _ hl) (Nat.lt_irrefl _)
  · rcases Project.mem_add.mp hf with hf | rfl
    · exact h.byText f hf hl t ht
    · obtain rfl : content = .text t := ht
      rfl

/-- A change after which a text file has the kind of its name and its text makes no file loose. -/
theorem Typed.update (h : Typed loose p) (id : Nat) {change : File → File}
    (hid : ∀ f, (change f).id = f.id)
    (hkind : ∀ f t, (change f).content = .text t →
      (change f).kind = File.recognise (change f).name (some t)) :
    Typed (fun i => loose i ∧ id ≠ i) (p.update id change) := by
  refine ⟨h.numbered.update id hid, fun i hi => h.below i hi.1, fun f hf hl => ?_,
    fun f hf hl t ht => ?_⟩
  · obtain ⟨g, hg, rfl⟩ := Project.mem_update.mp hf
    by_cases hgid : g.id = id
    · rw [if_pos hgid] at hl
      exact absurd ((hid g).trans hgid).symm hl.2
    · rw [if_neg hgid] at hl ⊢
      exact h.byName g hg hl.1
  · obtain ⟨g, hg, rfl⟩ := Project.mem_update.mp hf
    by_cases hgid : g.id = id
    · rw [if_pos hgid] at ht ⊢
      exact hkind g t ht
    · rw [if_neg hgid] at hl ht ⊢
      exact h.byText g hg (fun hg' => hl ⟨hg', Ne.symm hgid⟩) t ht

theorem kind_renameAs {f : File} {name t : String} (h : (f.renameAs name).content = .text t) :
    (f.renameAs name).kind = File.recognise (f.renameAs name).name (some t) := by
  unfold File.renameAs at *
  split at h
  · rename_i s hs
    obtain rfl : s = t := by simpa [hs] using h
    rfl
  · rename_i hs
    simp [hs] at h

theorem id_renameAs (f : File) (name : String) : (f.renameAs name).id = f.id := by
  unfold File.renameAs
  split <;> rfl

/-! ## Actions and histories -/

theorem Typed.act {s : Studio × Tabs} (h : Typed loose s.1.project) (a : Action) :
    Typed (fun id => loose id ∧ a.retypes id = false ∨
      a.addsByName = true ∧ s.1.project.nextId = id) (act s a).1.project := by
  cases a with
  | add name =>
    show Typed _ (s.1.add name).project
    unfold Studio.add
    by_cases hb : (Text.trim name).isEmpty = true
    · simp only [hb, if_true]
      exact h.congr (by simp [hb])
    · simp only [hb]
      exact (h.addByName (Text.trim name)).congr (by simp [hb])
  | take name content =>
    exact (h.addRead name content).congr (by simp)
  | importAll uploads =>
    have hi : Typed loose (s.1.importAll uploads).1.project :=
      importAll_induction (P := fun t => Typed loose t.project) h
        (fun s name content hs => hs.addRead name content) (fun _ _ hs => hs) uploads
    exact hi.congr (by simp)
  | remove id => exact (h.remove id).congr (by simp)
  | edit id text =>
    have he : Typed (fun i => loose i ∧ id ≠ i) (s.1.edit id text).project :=
      h.update id (fun _ => rfl) fun f t ht => by
        obtain rfl : text = t := by simpa [File.edit] using ht
        rfl
    exact he.congr (by simp)
  | rename id name =>
    show Typed _ (s.1.rename id name).project
    unfold Studio.rename
    by_cases hb : (Text.trim name).isEmpty = true
    · simp only [hb, if_true]
      exact h.congr (by simp [hb])
    · simp only [hb]
      exact (h.update id (id_renameAs · _) fun f t ht => kind_renameAs ht).congr (by simp [hb])
  | setMode mode => exact (h.setMode mode).congr (by simp)
  | renderInTab b =>
    obtain ⟨notice?, hn⟩ := exists_renderInTab_eq s.1 b s.2
    show Typed _ (s.1.renderInTab b s.2).1.project
    rw [hn]
    exact h.congr (by simp)
  | receive fromPage data =>
    show Typed _ (s.1.receive fromPage data).project
    unfold Studio.receive
    split <;> exact h.congr (by simp)
  | activate _ | render | hidePreview | setNotice _ | clearConsole =>
    exact h.congr (by simp)

theorem Typed.run (h : Typed (fun _ => False) s.project) (history : List Action) :
    Typed (s.Untouched history) (s.run history).1.project := by
  induction history using List.reverseRecOn with
  | nil => exact h.congr fun id => iff_of_false (not_untouched_nil id) not_false
  | append_singleton history a ih =>
    rw [run_concat]
    exact (ih.act a).congr fun _ => untouched_concat

/-- In a project of texts of their right kinds no file is loose. -/
theorem typed_ofTexts (mode : Mode) {texts : List (String × Kind × String)}
    (h : ∀ t ∈ texts, File.recognise t.1 (some t.2.2) = t.2.1) :
    Typed (fun _ => False) (Project.ofTexts mode texts) := by
  induction texts using List.reverseRecOn with
  | nil =>
    exact ⟨Project.numbered_new mode, fun _ h => h.elim, fun _ hf => absurd hf List.not_mem_nil,
      fun _ hf => absurd hf List.not_mem_nil⟩
  | append_singleton texts t ih =>
    have ht := h t (by simp)
    have hadd := (ih fun u hu => h u (by simp [hu])).addRead t.1 (.text t.2.2)
    rw [Project.ofTexts, List.foldl_append]
    rw [Content.text?, ht] at hadd
    exact hadd

theorem typed_starter : Typed (fun _ => False) start.project :=
  typed_ofTexts default (by decide)

/-- The kind of a text file is that of its name and its text, and so is its role when the page is
composed, unless it was added by its name alone and not edited or renamed since, and its name is
that of a module without saying so by its extension. -/
theorem kind_eq_recognise_iff (history : List Action) (f : File) (t : String)
    (hf : f ∈ (start.run history).1.project.files) (ht : f.content = .text t) :
    (f.kind = File.recognise f.name (some t) ↔
      ¬ (start.Untouched history f.id ∧ File.IsUntoldModule f.name)) ∧
    (f.role = (File.recognise f.name (some t)).role ↔
      ¬ (start.Untouched history f.id ∧ File.IsUntoldModule f.name)) := by
  have h := typed_starter.run history
  by_cases hu : start.Untouched history f.id
  · obtain ⟨hc, hk⟩ := h.byName f hf hu
    obtain rfl : "" = t := by simpa [hc] using ht
    rw [File.role, hk, eq_comm, File.recognise_empty_eq_iff, eq_comm,
      File.role_recognise_empty_eq_iff]
    simp [hu]
  · have hk := h.byText f hf hu t ht
    have hn : ¬ (start.Untouched history f.id ∧ File.IsUntoldModule f.name) := fun h => hu h.1
    exact ⟨iff_of_true hk hn, iff_of_true (congrArg Kind.role hk) hn⟩

/-- Two files are added by names that end like those of modules; one is renamed. -/
def twoEndings : List Action := [.add "lib.esm.js", .add "more.esm.js", .rename 5 "main.esm.js"]

theorem kind_eq_recognise_iff_twoEndings :
    ⟨4, "lib.esm.js", none, .script, .text ""⟩ ∈ (start.run twoEndings).1.project.files ∧
    start.Untouched twoEndings 4 ∧ File.IsUntoldModule "lib.esm.js" ∧
    Kind.script ≠ File.recognise "lib.esm.js" (some "") ∧
    ⟨5, "main.esm.js", some "more.esm.js", .moduleScript, .text ""⟩ ∈
      (start.run twoEndings).1.project.files ∧
    ¬ start.Untouched twoEndings 5 ∧
    Kind.moduleScript = File.recognise "main.esm.js" (some "") := by
  have hf : ⟨4, "lib.esm.js", none, .script, .text ""⟩ ∈
      (start.run twoEndings).1.project.files := by decide
  have hg : ⟨5, "main.esm.js", some "more.esm.js", .moduleScript, .text ""⟩ ∈
      (start.run twoEndings).1.project.files := by decide
  have hu : start.Untouched twoEndings 4 :=
    ⟨[], .add "lib.esm.js", [.add "more.esm.js", .rename 5 "main.esm.js"], rfl,
      by decide, rfl, by decide⟩
  have hm : File.IsUntoldModule "lib.esm.js" := .inl (by decide)
  have hn : ¬ start.Untouched twoEndings 5 := fun h => by
    have h : start.Untouched ([.add "lib.esm.js", .add "more.esm.js"] ++
        [.rename 5 "main.esm.js"]) 5 := h
    rcases untouched_concat.mp h with ⟨-, h⟩ | ⟨h, -⟩
    · revert h
      decide
    · cases h
  exact ⟨hf, hu, hm, fun h => (kind_eq_recognise_iff twoEndings _ "" hf rfl).1.mp h ⟨hu, hm⟩,
    hg, hn, (kind_eq_recognise_iff twoEndings _ "" hg rfl).1.mpr fun h => hn h.1⟩

/-- A file that was just added is a script, though its name and its text make it a module. -/
theorem not_forall_kind_eq_recognise :
    ¬ ∀ (history : List Action) (f : File) (t : String),
      f ∈ (start.run history).1.project.files → f.content = .text t →
      f.kind = File.recognise f.name (some t) := by
  intro h
  have hf : ⟨4, "lib.esm.js", none, .script, .text ""⟩ ∈
      (start.run [.add "lib.esm.js"]).1.project.files := by decide
  have hk : File.recognise "lib.esm.js" (some "") = .moduleScript := by decide
  cases (h _ _ "" hf rfl).trans hk

end Workbench.Studio
