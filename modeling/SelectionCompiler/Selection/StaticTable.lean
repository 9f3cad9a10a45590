import SelectionCompiler.OrdMap
import SelectionCompiler.Selection.Basic
import SelectionCompiler.Text.Quoted

/-!
Static tables: named lists of items in which nested selections and references are
links to other tables of the same family. References may lead in circles. Nested
links may not, and so a walk along them passes each table at most once: the
functions below take the number of tables for fuel.
-/

namespace SelectionCompiler

/-- An item of a table; the second component of a link is the name of a table. -/
inductive StaticItem where
  | field (name : String)
  | nested (name : String) (table : String)
  | reference (name : String) (table : String)
deriving DecidableEq, Inhabited

namespace StaticItem

def name : StaticItem → String
  | .field name => name
  | .nested name _ => name
  | .reference name _ => name

/-- The table that an item links to. -/
def link? : StaticItem → Option String
  | .field _ => none
  | .nested _ table => some table
  | .reference _ table => some table

end StaticItem

structure StaticFamily where
  tables : OrdMap (List StaticItem)
deriving DecidableEq, Inhabited

namespace StaticFamily

/-- The items of a table; a table outside the family has none. -/
def items (f : StaticFamily) (table : String) : List StaticItem := (f.tables.get? table).getD []

/-- Whether every link leads to a table of the family. -/
def isClosed (f : StaticFamily) : Bool :=
  f.tables.values.all fun items => items.all fun item =>
    match item.link? with
    | some table => f.tables.contains table
    | none => true

/-- The selection of the items with all references as bare fields. -/
def cutWithin (f : StaticFamily) : Nat → List StaticItem → Selection
  | 0, items => items.map fun item =>
      match item with
      | .nested name _ => .nested name []
      | item => .field item.name
  | fuel + 1, items => items.map fun item =>
      match item with
      | .nested name table => .nested name (f.cutWithin fuel (f.items table))
      | item => .field item.name

/-- The selection of the items with references resolved to the given depth: depth
one and zero leave bare fields. -/
def resolve (f : StaticFamily) : Nat → List StaticItem → Selection
  | 0, items => f.cutWithin f.tables.size items
  | depth + 1, items => items.map fun item =>
      match item with
      | .field name => .field name
      | .nested name table => .nested name (f.resolve depth (f.items table))
      | .reference name table =>
          if 0 < depth then .nested name (f.resolve depth (f.items table)) else .field name

/-- Whether two items say the same: nested links by what they lead to, references by
the table itself. -/
def sameItem (sameItems : List StaticItem → List StaticItem → Bool) (f : StaticFamily) :
    StaticItem → StaticItem → Bool
  | .field m, .field n => m == n
  | .nested m t, .nested n u => m == n && sameItems (f.items t) (f.items u)
  | .reference m t, .reference n u => m == n && t == u
  | _, _ => false

/-- Whether two lists have the same length and related members at each place. -/
def pairwise {α : Type} (related : α → α → Bool) : List α → List α → Bool
  | [], [] => true
  | x :: xs, y :: ys => related x y && pairwise related xs ys
  | _, _ => false

def sameWithin (f : StaticFamily) : Nat → List StaticItem → List StaticItem → Bool
  | 0, xs, ys => xs == ys
  | fuel + 1, xs, ys => pairwise (f.sameItem (f.sameWithin fuel)) xs ys

/-- Whether two lists of items say the same. -/
def same (f : StaticFamily) (xs ys : List StaticItem) : Bool :=
  f.sameWithin (f.tables.size + 1) xs ys

/-- Items in brackets with commas between them. -/
def describeList (texts : List String) : String := "[" ++ ", ".intercalate texts ++ "]"

def describeWithin (f : StaticFamily) : Nat → List StaticItem → String
  | 0, items => describeList (items.map fun item =>
      match item with
      | .nested name _ => "Nested(" ++ Text.quoted name ++ ", [])"
      | .field name => "Field(" ++ Text.quoted name ++ ")"
      | .reference name _ => "Reference(" ++ Text.quoted name ++ ", ..)")
  | fuel + 1, items => describeList (items.map fun item =>
      match item with
      | .nested name table =>
          "Nested(" ++ Text.quoted name ++ ", " ++ f.describeWithin fuel (f.items table) ++ ")"
      | .field name => "Field(" ++ Text.quoted name ++ ")"
      | .reference name _ => "Reference(" ++ Text.quoted name ++ ", ..)")

/-- A description for people, in which references are not followed. -/
def describe (f : StaticFamily) (items : List StaticItem) : String :=
  f.describeWithin f.tables.size items

end StaticFamily

end SelectionCompiler
