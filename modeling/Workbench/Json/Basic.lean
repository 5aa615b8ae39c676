import Workbench.Decimal.Shortest
import Workbench.Text.Quoted

/-!
# JSON

A number without fraction and exponent that fits 64 bits is an integer, every other number a double.
The fields of an object are in increasing order of their keys and no key occurs twice; of several
fields with one key the last is kept. `Json.field?` looks a field up.

Scalars have one text. Lists and objects are laid out with one item or field a line, indented by two
spaces for each level; an empty one is written as a pair of brackets.
-/

namespace Workbench

/-- A JSON value. -/
inductive Json where
  | null
  | bool (b : Bool)
  | int (n : Int)
  | double (x : Float)
  | text (s : String)
  | list (items : List Json)
  | object (fields : List (String × Json))
  deriving Inhabited

namespace Json

/-- Puts a field in its place among fields in order, in place of one with the same key. -/
def insertField (key : String) (value : Json) : List (String × Json) → List (String × Json)
  | [] => [(key, value)]
  | (k, v) :: rest =>
    if key = k then (key, value) :: rest
    else if key < k then (key, value) :: (k, v) :: rest
    else (k, v) :: insertField key value rest

/-- The object with these fields. -/
def ofFields (fields : List (String × Json)) : Json :=
  object (fields.foldl (fun sorted f => insertField f.1 f.2 sorted) [])

/-- The value of the field with this key. -/
def lookup (key : String) (fields : List (String × Json)) : Option Json :=
  (fields.find? (·.1 == key)).map (·.2)

/-- The value of a field, if the value is an object that has it. -/
def field? (key : String) : Json → Option Json
  | object fields => lookup key fields
  | _ => none

/-! ## Printing -/

/-- Doubles from 1e-5 up to 1e16 are written positionally, all others with an exponent. -/
def doubleFormat : Decimal.Format := ⟨-5, 16⟩

/-- The text of a double. -/
def doubleText (x : Float) : String :=
  ((Decimal.write? doubleFormat x).map String.ofList).getD "null"

/-- The start of a line at a depth. -/
def newline (depth : Nat) : String := "\n" ++ String.ofList (List.replicate (2 * depth) ' ')

mutual

/-- The text of a value at a depth. -/
def pretty (depth : Nat) : Json → String
  | null => "null"
  | bool b => if b then "true" else "false"
  | int n => toString n
  | double x => doubleText x
  | text s => Text.quoted s
  | list [] => "[]"
  | list (x :: xs) =>
    "[" ++ newline (depth + 1) ++ pretty (depth + 1) x ++ prettyItems (depth + 1) xs
      ++ newline depth ++ "]"
  | object [] => "\x7b\x7d"
  | object ((k, v) :: fs) =>
    "\x7b" ++ newline (depth + 1) ++ Text.quoted k ++ ": " ++ pretty (depth + 1) v
      ++ prettyFields (depth + 1) fs ++ newline depth ++ "\x7d"

/-- The later items of a list. -/
def prettyItems (depth : Nat) : List Json → String
  | [] => ""
  | x :: xs => "," ++ newline depth ++ pretty depth x ++ prettyItems depth xs

/-- The later fields of an object. -/
def prettyFields (depth : Nat) : List (String × Json) → String
  | [] => ""
  | (k, v) :: fs =>
    "," ++ newline depth ++ Text.quoted k ++ ": " ++ pretty depth v ++ prettyFields depth fs

end

end Json
end Workbench
