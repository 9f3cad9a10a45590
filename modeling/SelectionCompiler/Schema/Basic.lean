import SelectionCompiler.OrdMap
import SelectionCompiler.Schema.TypeRef

/-!
Schemas: named types with their fields in order of declaration, and the names of
the two types at which an operation can start. A schema is built by adding types
under their own names; adding a name again replaces the type where it stands.
-/

namespace SelectionCompiler

/-- What a type is to a selection: one with fields to select, or a leaf of one of
three sorts. -/
inductive TypeKind where
  | composite
  | scalar
  | enumeration
  | input
deriving DecidableEq, Inhabited

namespace TypeKind

def text : TypeKind → String
  | .composite => "composite"
  | .scalar => "scalar"
  | .enumeration => "enum"
  | .input => "input"

def ofText? : String → Option TypeKind
  | "composite" => some .composite
  | "scalar" => some .scalar
  | "enum" => some .enumeration
  | "input" => some .input
  | _ => none

/-- Values of a leaf type have no fields to select. -/
def isLeaf (kind : TypeKind) : Bool := kind ≠ .composite

end TypeKind

/-- The two kinds of operation. -/
inductive OperationKind where
  | query
  | mutation
deriving DecidableEq, Inhabited

namespace OperationKind

/-- The word that opens an operation of this kind. -/
def keyword : OperationKind → String
  | .query => "query"
  | .mutation => "mutation"

def ofText? : String → Option OperationKind
  | "query" => some .query
  | "mutation" => some .mutation
  | _ => none

end OperationKind

structure ArgumentDef where
  name : String
  type : TypeRef
deriving DecidableEq, Inhabited

/-- A field of a type. Its type can be missing from the source. -/
structure FieldDef where
  name : String
  type : Option TypeRef
  arguments : List ArgumentDef
deriving DecidableEq, Inhabited

structure TypeDef where
  name : String
  kind : TypeKind
  fields : OrdMap FieldDef
deriving DecidableEq, Inhabited

namespace TypeDef

/-- A type without fields. -/
def bare (name : String) (kind : TypeKind) : TypeDef := ⟨name, kind, ∅⟩

/-- Adds a field under its own name, in the place of an earlier one of that name. -/
def addField (type : TypeDef) (field : FieldDef) : TypeDef :=
  { type with fields := type.fields.insert field.name field }

def addFields (type : TypeDef) (fields : List FieldDef) : TypeDef := fields.foldl addField type

end TypeDef

/-- Names that begin with two underscores belong to the introspection system. -/
def isIntrospectionName (name : String) : Bool :=
  match name.toList with
  | '_' :: '_' :: _ => true
  | _ => false

/-- The scalar types that every schema has from the start. -/
def builtinScalars : List String := ["Int", "Float", "String", "Boolean", "ID"]

def isBuiltinScalar (name : String) : Bool := builtinScalars.contains name

structure Schema where
  types : OrdMap TypeDef
  queryType : Option String
  mutationType : Option String
deriving DecidableEq

namespace Schema

/-- The schema without any type. -/
def empty : Schema := ⟨∅, none, none⟩

instance : Inhabited Schema := ⟨empty⟩

/-- Adds a type under its own name, in the place of an earlier one of that name. -/
def addType (schema : Schema) (type : TypeDef) : Schema :=
  { schema with types := schema.types.insert type.name type }

def addTypes (schema : Schema) (types : List TypeDef) : Schema := types.foldl addType schema

/-- The schema that holds the built-in scalars alone. -/
def builtin : Schema := empty.addTypes (builtinScalars.map (TypeDef.bare · .scalar))

def setQueryType (schema : Schema) (name : Option String) : Schema :=
  { schema with queryType := name }

def setMutationType (schema : Schema) (name : Option String) : Schema :=
  { schema with mutationType := name }

def get? (schema : Schema) (name : String) : Option TypeDef := schema.types.get? name

def kindOf? (schema : Schema) (name : String) : Option TypeKind := (schema.get? name).map (·.kind)

/-- The type at which operations of the given kind start: named by the schema,
present and composite. -/
def rootType? (schema : Schema) (operation : OperationKind) : Option TypeDef := do
  let name ← match operation with
    | .query => schema.queryType
    | .mutation => schema.mutationType
  let type ← schema.get? name
  if type.kind = .composite then some type else none

/-- The types at which operations start, the query type first. -/
def rootTypes (schema : Schema) : List (OperationKind × TypeDef) :=
  [.query, .mutation].filterMap fun operation =>
    (schema.rootType? operation).map fun type => (operation, type)

end Schema

end SelectionCompiler
