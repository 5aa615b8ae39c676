import Workbench.View.Basic

/-!
# Looking at a tree of elements

What a reader of the user interface sees: the elements of a tree that pass a test of tag and
attributes, in the order in which they stand (`select`), and the text inside an element
(`shownText`).
-/

namespace Workbench.View

/-- The value of an attribute. -/
def Node.attribute? (key : String) : Node → Option Value
  | .element _ attributes _ => attributes.lookup key
  | _ => none

mutual

/-- The elements that pass the test, an element before those inside it. -/
def Node.select (ok : String → List (String × Value) → Bool) : Node → List Node
  | .text _ => []
  | .icon _ => []
  | .element tag attributes children =>
    (if ok tag attributes then [.element tag attributes children] else []) ++
      selectAll ok children

/-- The elements of several trees that pass the test. -/
def selectAll (ok : String → List (String × Value) → Bool) : List Node → List Node
  | [] => []
  | n :: ns => n.select ok ++ selectAll ok ns

end

mutual

/-- The text inside a node. -/
def Node.shownText : Node → String
  | .text s => s
  | .icon _ => ""
  | .element _ _ children => shownTexts children

/-- The text inside several nodes. -/
def shownTexts : List Node → String
  | [] => ""
  | n :: ns => n.shownText ++ shownTexts ns

end

/-- The test for a tag. -/
def ofTag (name : String) (tag : String) (_ : List (String × Value)) : Bool := tag == name

/-- The test for a class attribute. -/
def ofClass (name : String) (_ : String) (attributes : List (String × Value)) : Bool :=
  attributes.lookup "class" == some (.text name)

variable {ok : String → List (String × Value) → Bool}

theorem selectAll_append (ns ms : List Node) :
    selectAll ok (ns ++ ms) = selectAll ok ns ++ selectAll ok ms := by
  induction ns with
  | nil => rfl
  | cons n ns ih => rw [List.cons_append, selectAll, selectAll, ih, List.append_assoc]

theorem selectAll_map {α : Type} (f : α → Node) (l : List α) :
    selectAll ok (l.map f) = l.flatMap fun a => (f a).select ok := by
  induction l with
  | nil => rfl
  | cons a l ih => rw [List.map_cons, selectAll, ih, List.flatMap_cons]

end Workbench.View
