import SelectionCompiler.Json.Basic

/-!
Selections: lists of elements to select on a type. An element is a bare field, a
field with a selection of its own, or a field with a reference to the selection
registered for a type.
-/

namespace SelectionCompiler

inductive Element where
  | field (name : String)
  | nested (name : String) (children : List Element)
  | reference (name : String) (type : String)
deriving Inhabited

abbrev Selection := List Element

namespace Element

/-- The name of the selected field. -/
def name : Element → String
  | .field name => name
  | .nested name _ => name
  | .reference name _ => name

mutual

def decEq : (a b : Element) → Decidable (a = b)
  | .field m, .field n => decidable_of_iff (m = n) (by simp)
  | .reference m t, .reference n u => decidable_of_iff (m = n ∧ t = u) (by simp)
  | .nested m xs, .nested n ys =>
      match decEqList xs ys with
      | isTrue h => decidable_of_iff (m = n) (by simp [h])
      | isFalse h => isFalse (by simp [h])
  | .field _, .nested .. | .field _, .reference .. => isFalse (by simp)
  | .nested .., .field _ | .nested .., .reference .. => isFalse (by simp)
  | .reference .., .field _ | .reference .., .nested .. => isFalse (by simp)

def decEqList : (xs ys : List Element) → Decidable (xs = ys)
  | [], [] => isTrue rfl
  | [], _ :: _ => isFalse (by simp)
  | _ :: _, [] => isFalse (by simp)
  | x :: xs, y :: ys =>
      match decEq x y with
      | isFalse h => isFalse (by simp [h])
      | isTrue h =>
          match decEqList xs ys with
          | isTrue h' => isTrue (by rw [h, h'])
          | isFalse h' => isFalse (by simp [h'])

end

instance : DecidableEq Element := decEq

/-! ## The loose form

A selection can be given as an array in which a string is a bare field and an
object with one member that holds an array is a nested one. Whatever else stands
in the array counts as a field without a name. -/

mutual

def ofLoose : Json → Element
  | .str name => .field name
  | .obj [(name, .arr items)] => .nested name (ofLooseItems items)
  | _ => .field ""

def ofLooseItems : List Json → List Element
  | [] => []
  | v :: rest => ofLoose v :: ofLooseItems rest

end

end Element

namespace Selection

/-- The names of the elements, in order. -/
def names (s : Selection) : List String := s.map Element.name

/-- The selection of a value in the loose form; a value that is no array selects
nothing. -/
def ofLoose : Json → Selection
  | .arr items => Element.ofLooseItems items
  | _ => []

end Selection

end SelectionCompiler
