/-!
# Resolving paths

A path is a list of segments between slashes. A reference that begins with a slash names a path
from the root; any other is followed from the directory of the file that holds it. `..` takes the
last segment back, and does nothing once none is left; `.` and empty segments are skipped.
-/

namespace Workbench.Paths

/-- The pieces between slashes; there is always at least one. -/
def segments : List Char → List (List Char)
  | [] => [[]]
  | c :: rest =>
    if c = '/' then [] :: segments rest
    else match segments rest with
      | [] => [[c]]
      | s :: ss => (c :: s) :: ss

/-- The segments put together with slashes between them. -/
def join : List (List Char) → List Char
  | [] => []
  | [s] => s
  | s :: ss => s ++ '/' :: join ss

/-- The non-empty segments of the directory of a path. -/
def directory (path : List Char) : List (List Char) :=
  (segments path).dropLast.filter (!·.isEmpty)

/-- Follows one segment. -/
def follow (place : List (List Char)) (segment : List Char) : List (List Char) :=
  if segment = ['.', '.'] then place.dropLast
  else if segment = ['.'] ∨ segment = [] then place
  else place ++ [segment]

/-- The path that a reference names in the file at `base`. -/
def resolveChars (base : List Char) : List Char → List Char
  | '/' :: rooted => rooted
  | reference => join ((segments reference).foldl follow (directory base))

/-- The path that a reference names in the file at `base`. -/
def resolve (base reference : String) : String :=
  String.ofList (resolveChars base.toList reference.toList)

theorem segments_ne_nil (path : List Char) : segments path ≠ [] := by
  cases path with
  | nil => simp [segments]
  | cons c rest =>
    simp only [segments]
    split
    · simp
    · split <;> simp

end Workbench.Paths
