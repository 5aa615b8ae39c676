import Mathlib.Data.List.Nodup
import Workbench.Proofs.Script.LineByLine
import Workbench.Proofs.Script.Names

/-!
# Linking one list of modules after another

The bodies of two lists of modules follow one another, while their names and their bare imports are
merged: an entry of the later list is kept only where the earlier list does not hold it. So linking
is a homomorphism from concatenation to the results (`link_append`), and what a module becomes depends
on its own text alone.

* `eraseDups_append_eq_merge`: keeping the first of equal entries can be done list by list.
* `globalLine_injective`: a line of the last block tells which name it is for.
-/

namespace Workbench.Script

/-! ## Merging -/

/-- The entries of two lists in order, those of the later one only where the earlier one does not
hold them. -/
def merge (earlier later : List String) : List String :=
  earlier ++ later.filter fun t => !earlier.elem t

/-- The first of equal entries can be kept in each list alone, and again when they are merged. -/
theorem eraseDups_append_eq_merge (earlier later : List String) :
    (earlier ++ later).eraseDups = merge earlier.eraseDups later.eraseDups := by
  rw [List.eraseDups_append, List.removeAll, filter_eraseDups, merge]
  congr 1
  refine List.filter_congr fun t _ => ?_
  rw [Bool.eq_iff_iff]
  simp

/-- What repeats within a module can be dropped before the modules are put together. -/
theorem eraseDups_flatMap_eraseDups (f : Source → List String) (modules : List Source) :
    (modules.flatMap fun m => (f m).eraseDups).eraseDups = (modules.flatMap f).eraseDups := by
  induction modules with
  | nil => rfl
  | cons m modules ih =>
    rw [List.flatMap_cons, List.flatMap_cons, eraseDups_append_eq_merge, ih,
      eraseDups_append_eq_merge, eraseDups_eq_self (nodup_eraseDups _)]

/-! ## The block behind the modules -/

theorem globalLine_injective : Function.Injective globalLine := by
  intro name name' h
  have hchars := congrArg String.toList h
  unfold globalLine at hchars
  simp only [String.toList_append, List.append_assoc] at hchars
  have hrest := List.append_cancel_left hchars
  have hlen : name.toList.length = name'.toList.length := by
    have := congrArg List.length hrest
    simp only [List.length_append] at this
    omega
  exact String.toList_inj.mp (List.append_inj_left hrest hlen)

/-- The script without the block that exposes the names. -/
def Linked.body (l : Linked) : String :=
  String.ofList (l.script.toList.take (l.script.length - (globalBlock l.names).length))

theorem script_link (modules : List Source) :
    (link modules).script =
      String.join (modules.map Source.block) ++ globalBlock (link modules).names := rfl

theorem body_link (modules : List Source) :
    (link modules).body = String.join (modules.map Source.block) := by
  rw [Linked.body, script_link, String.length_append, Nat.add_sub_cancel, String.toList_append,
    ← String.length_toList, List.take_left, String.ofList_toList]

/-- The modules stand in the script one after the other, each under its name and as its own text
makes it. Behind them, under a heading, each name has one line. -/
structure Linked.LaysOut (l : Linked) (modules : List Source) : Prop where
  body : l.body = String.join
    (modules.map fun m => "// --- " ++ m.name ++ " ---\n" ++ Text.trimEnd m.body ++ "\n\n")
  script : l.script = l.body ++ if l.names = [] then "" else
    "// Make declarations reachable from inline event handlers\n" ++
      String.join (l.names.map globalLine)
  isLine : ∀ name ∈ l.names, IsLine (globalLine name).toList
  lines_nodup : (l.names.map globalLine).Nodup
  names : l.names = (modules.flatMap fun m => m.names.eraseDups).eraseDups
  names_nodup : l.names.Nodup
  hoisted : l.hoisted = (modules.flatMap fun m => m.bareImports.eraseDups).eraseDups
  hoisted_nodup : l.hoisted.Nodup

theorem globalBlock_eq (names : List String) :
    globalBlock names = if names = [] then "" else
      "// Make declarations reachable from inline event handlers\n" ++
        String.join (names.map globalLine) := by
  cases names with
  | nil => rfl
  | cons name names => rfl

theorem laysOut_link (modules : List Source) : (link modules).LaysOut modules where
  body := body_link modules
  script := by
    rw [body_link, ← globalBlock_eq, script_link]
  isLine := by
    intro name h
    obtain ⟨m, -, hm⟩ := List.mem_flatMap.mp (List.mem_eraseDups.mp h)
    obtain ⟨x, hx⟩ := exists_identifier_of_mem_names hm
    exact isLine_globalLine x hx
  lines_nodup := List.Nodup.map globalLine_injective (nodup_eraseDups _)
  names := (eraseDups_flatMap_eraseDups Source.names modules).symm
  names_nodup := nodup_eraseDups _
  hoisted := (eraseDups_flatMap_eraseDups Source.bareImports modules).symm
  hoisted_nodup := nodup_eraseDups _

/-- Linking one list of modules after another is linking each of them: the bodies follow one another,
the names and the bare imports are merged, and behind the bodies each name has its line. -/
theorem link_append (xs ys : List Source) :
    (link (xs ++ ys)).body = (link xs).body ++ (link ys).body ∧
      (link (xs ++ ys)).names = merge (link xs).names (link ys).names ∧
      (link (xs ++ ys)).hoisted = merge (link xs).hoisted (link ys).hoisted ∧
      (link (xs ++ ys)).LaysOut (xs ++ ys) := by
  refine ⟨?_, ?_, ?_, laysOut_link (xs ++ ys)⟩
  · rw [body_link, body_link, body_link, List.map_append, String.join_append]
  · show ((xs ++ ys).flatMap Source.names).eraseDups = _
    rw [List.flatMap_append, eraseDups_append_eq_merge]
    rfl
  · show ((xs ++ ys).flatMap Source.bareImports).eraseDups = _
    rw [List.flatMap_append, eraseDups_append_eq_merge]
    rfl

end Workbench.Script
