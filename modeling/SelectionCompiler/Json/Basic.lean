import SelectionCompiler.OrdMap
import SelectionCompiler.Number.Shortest

/-!
JSON values. An object is the list of its members in the order they are written;
`merged` gives the map that the list stands for, in which a repeated key keeps
its first place and takes its last value. A number is an integer, or the
shortest decimal of the floating-point number its text stands for.
-/

namespace SelectionCompiler

namespace Json

inductive Number where
  | int (value : Int)
  | decimal (value : Decimal)
deriving DecidableEq, Inhabited

end Json

inductive Json where
  | null
  | bool (value : Bool)
  | num (value : Json.Number)
  | str (value : String)
  | arr (items : List Json)
  | obj (members : List (String × Json))
deriving Inhabited

namespace Json

/-- The members with repeated keys merged. -/
def mergeKeys (members : List (String × Json)) : List (String × Json) :=
  members.foldl (fun merged m => upsert m.1 m.2 merged) []

mutual

/-- The value with the repeated keys of every object merged. -/
def merged : Json → Json
  | .arr items => .arr (mergedItems items)
  | .obj members => .obj (mergeKeys (mergedMembers members))
  | .null => .null
  | .bool b => .bool b
  | .num n => .num n
  | .str s => .str s

def mergedItems : List Json → List Json
  | [] => []
  | v :: rest => v.merged :: mergedItems rest

/-- The members with their values merged. -/
def mergedMembers : List (String × Json) → List (String × Json)
  | [] => []
  | (key, v) :: rest => (key, v.merged) :: mergedMembers rest

end

mutual

/-- How many containers stand inside one another at the deepest point. -/
def nesting : Json → Nat
  | .arr items => itemsNesting items + 1
  | .obj members => membersNesting members + 1
  | _ => 0

def itemsNesting : List Json → Nat
  | [] => 0
  | v :: rest => max v.nesting (itemsNesting rest)

def membersNesting : List (String × Json) → Nat
  | [] => 0
  | (_, v) :: rest => max v.nesting (membersNesting rest)

end

/-- The greatest nesting that a text may have. -/
def maxNesting : Nat := 127

def ofNat (n : Nat) : Json := .num (.int n)

def ofStrings (xs : List String) : Json := .arr (xs.map .str)

/-- A string, or null where there is none. -/
def ofOptionString : Option String → Json
  | some s => .str s
  | none => .null

end Json

end SelectionCompiler
