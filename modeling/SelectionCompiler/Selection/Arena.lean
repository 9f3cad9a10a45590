import SelectionCompiler.OrdMap
import SelectionCompiler.Schema.Basic
import SelectionCompiler.Selection.Basic

/-!
Arenas: the selections registered for types, which references look up by name. An
arena is made with all its types in emission order and empty selections; filling
replaces the selection of a type that is registered and refuses any other.

`Arena.resolve` turns references into nested selections down to a depth, below
which they are bare fields. Nested selections that are already there are kept at
any depth.
-/

namespace SelectionCompiler

/-- The selection on a type, and the depth that it was made for. -/
structure Submodel where
  typeName : String
  depth : Nat
  selection : Selection
deriving DecidableEq, Inhabited

/-- The selection on the type that an operation returns. -/
structure Root where
  field : String
  operation : OperationKind
  returnType : String
  depth : Nat
  selection : Selection
deriving DecidableEq, Inhabited

structure Arena where
  entries : OrdMap Submodel
deriving DecidableEq, Inhabited

namespace Element

mutual

/-- The element with every reference in it cut down to a bare field. -/
def cut : Element → Element
  | .field name => .field name
  | .nested name children => .nested name (cutAll children)
  | .reference name _ => .field name

def cutAll : List Element → List Element
  | [] => []
  | e :: rest => cut e :: cutAll rest

end

end Element

namespace Arena

def empty : Arena := ⟨∅⟩

/-- The arena of the named types in that order, all with empty selections. -/
def withOrder (names : List String) (depth : Nat) : Arena :=
  ⟨.ofList (names.map fun name => (name, ⟨name, depth, []⟩))⟩

/-- Puts a submodel in the place of its type, or refuses if the type is not
registered. -/
def fill? (a : Arena) (submodel : Submodel) : Option Arena :=
  if a.entries.contains submodel.typeName then
    some ⟨a.entries.insert submodel.typeName submodel⟩
  else none

/-- Fills in a submodel if its type is registered. -/
def fill (a : Arena) (submodel : Submodel) : Arena := (a.fill? submodel).getD a

def get? (a : Arena) (type : String) : Option Submodel := a.entries.get? type

def contains (a : Arena) (type : String) : Bool := a.entries.contains type

/-- The submodels in the order of their registration. -/
def submodels (a : Arena) : List Submodel := a.entries.values

/-- The selection with its references resolved to the given depth: depth one and
zero leave bare fields, a greater depth takes the selection of a registered type
resolved to one level less. -/
def resolve (a : Arena) : Nat → Selection → Selection
  | 0, s => Element.cutAll s
  | depth + 1, s => s.map fun e =>
      match e with
      | .field name => .field name
      | .nested name children => .nested name (a.resolve depth children)
      | .reference name type =>
          match a.get? type with
          | some target =>
              if 0 < depth then .nested name (a.resolve depth target.selection) else .field name
          | none => .field name

end Arena

end SelectionCompiler
