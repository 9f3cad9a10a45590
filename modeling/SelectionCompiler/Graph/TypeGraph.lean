import SelectionCompiler.Schema.Basic

/-!
Type graphs: the composite types of a schema, each with its typed fields and what
they lead to. Introspection types and introspection fields are left out. A field
leads on to a composite type when the schema holds a composite type under the
target's name and the name is no introspection name; otherwise it is a leaf.
-/

namespace SelectionCompiler

/-- What a field leads to: a value, or a type with fields of its own. -/
inductive TargetKind where
  | leaf
  | composite
deriving DecidableEq, Inhabited

def TargetKind.text : TargetKind → String
  | .leaf => "leaf"
  | .composite => "composite"

/-- A field with the name of its type below all wrappers. -/
structure FieldTarget where
  name : String
  target : String
  kind : TargetKind
deriving DecidableEq, Inhabited

def FieldTarget.isComposite (f : FieldTarget) : Bool := f.kind = .composite

/-- The composite types in order of declaration, under their own names. -/
structure TypeGraph where
  types : OrdMap (List FieldTarget)
deriving DecidableEq, Inhabited

namespace Schema

def targetKind (schema : Schema) (target : String) : TargetKind :=
  if schema.kindOf? target = some .composite && !isIntrospectionName target then .composite
  else .leaf

/-- The field as a node of the graph sees it, unless it has no type or an
introspection name. -/
def fieldTarget? (schema : Schema) (field : FieldDef) : Option FieldTarget :=
  if isIntrospectionName field.name then none
  else field.type.map fun type => ⟨field.name, type.target, schema.targetKind type.target⟩

def fieldTargets (schema : Schema) (type : TypeDef) : List FieldTarget :=
  type.fields.values.filterMap schema.fieldTarget?

/-- Whether selections are made on the type. -/
def isSelectable (type : TypeDef) : Bool :=
  type.kind = .composite && !isIntrospectionName type.name

def typeGraph (schema : Schema) : TypeGraph :=
  ⟨.ofList ((schema.types.values.filter isSelectable).map fun type =>
    (type.name, schema.fieldTargets type))⟩

end Schema

namespace TypeGraph

def names (g : TypeGraph) : List String := g.types.keys

def contains (g : TypeGraph) (type : String) : Bool := g.types.contains type

def fields? (g : TypeGraph) (type : String) : Option (List FieldTarget) := g.types.get? type

/-- The fields of a type; a type outside the graph has none. -/
def fields (g : TypeGraph) (type : String) : List FieldTarget := (g.fields? type).getD []

end TypeGraph

end SelectionCompiler
