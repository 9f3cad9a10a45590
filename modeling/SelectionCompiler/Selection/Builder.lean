import SelectionCompiler.Graph.TypeGraph
import SelectionCompiler.Selection.Arena

/-!
Selections of all fields of a type: with references for the fields that lead to
other types, or written out in full down to a depth.
-/

namespace SelectionCompiler

/-- The two uses of a selection: as the submodel of a type, or at the root of an
operation. -/
inductive Tier where
  | sub
  | parent
deriving DecidableEq, Inhabited

def Tier.ofText? : String → Option Tier
  | "sub" => some .sub
  | "parent" => some .parent
  | _ => none

namespace TypeGraph

/-- All fields of a type, those that lead to a composite type as references. -/
def referring (g : TypeGraph) (type : String) : Selection :=
  (g.fields type).map fun f => if f.isComposite then .reference f.name f.target else .field f.name

/-- All fields of a type written out to the given depth: depth one and zero leave
bare fields. -/
def inlined (g : TypeGraph) : Nat → String → Selection
  | 0, type => (g.fields type).map fun f => .field f.name
  | depth + 1, type => (g.fields type).map fun f =>
      if f.isComposite && 0 < depth then .nested f.name (g.inlined depth f.target)
      else .field f.name

/-- The selection on a type, with references where they are allowed. -/
def selection (g : TypeGraph) (type : String) (depth : Nat) (allowReferences : Bool) : Selection :=
  if allowReferences then g.referring type else g.inlined depth type

/-- Both tiers refer to submodels; they differ in how their depth is used later. -/
def tierSelection (g : TypeGraph) (_tier : Tier) (type : String) (depth : Nat) : Selection :=
  g.selection type depth true

@[simp] theorem tierSelection_eq (g : TypeGraph) (tier : Tier) (type : String) (depth : Nat) :
    g.tierSelection tier type depth = g.referring type := rfl

def submodel (g : TypeGraph) (type : String) (depth : Nat) : Submodel :=
  ⟨type, depth, g.tierSelection .sub type depth⟩

/-- The root for a field of an operation type. A field without a type returns
nothing to select on. -/
def root (g : TypeGraph) (operation : OperationKind) (field : FieldDef) (depth : Nat) : Root :=
  let returnType := (field.type.map TypeRef.target).getD ""
  ⟨field.name, operation, returnType, depth, g.tierSelection .parent returnType depth⟩

end TypeGraph

end SelectionCompiler
