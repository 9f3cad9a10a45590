import SelectionCompiler.Config
import SelectionCompiler.Failure
import SelectionCompiler.Graph.EmissionOrder
import SelectionCompiler.Selection.Builder
import SelectionCompiler.Selection.Codec

/-!
Compilations: the emission order of a schema's composite types, the selection on
each of them, and the selection at each field where an operation can start. A
query field hides a mutation field of the same name. The JSON form of a compilation is
an object, and no other value is read as one.
-/

namespace SelectionCompiler

structure Compilation where
  order : List String
  submodels : Arena
  roots : OrdMap Root
deriving DecidableEq, Inhabited

namespace Schema

/-- The submodels of the named types in an arena of that order. -/
def submodels (schema : Schema) (order : List String) (depth : Nat) : Arena :=
  let graph := schema.typeGraph
  order.foldl (fun a name => a.fill (graph.submodel name depth)) (.withOrder order depth)

/-- The typed fields at which operations start, those of queries first, without
introspection fields. -/
def rootFields (schema : Schema) : List (OperationKind × FieldDef) :=
  schema.rootTypes.flatMap fun root =>
    (root.2.fields.values.filter fun field =>
      !isIntrospectionName field.name && field.type.isSome).map fun field => (root.1, field)

def roots (schema : Schema) (depth : Nat) : OrdMap Root :=
  let graph := schema.typeGraph
  schema.rootFields.foldl (fun roots entry =>
    roots.insertIfNew entry.2.name (graph.root entry.1 entry.2 depth)) ∅

def compile (schema : Schema) (config : Config) : Compilation :=
  let order := schema.emissionOrder
  ⟨order, schema.submodels order config.submodelDepth, schema.roots config.rootDepth⟩

end Schema

namespace Compilation

def root? (c : Compilation) (field : String) : Option Root := c.roots.get? field

def resolve (c : Compilation) (selection : Selection) (depth : Nat) : Selection :=
  c.submodels.resolve depth selection

/-- The selection at a root field, resolved to the root's own depth. -/
def resolvedRoot? (c : Compilation) (field : String) : Option Selection :=
  (c.root? field).map fun root => c.resolve root.selection root.depth

/-- The resolved selection at a root field, or the failure that there is no such
operation. -/
def resolvedRoot (c : Compilation) (field : String) : Except Failure Selection :=
  match c.resolvedRoot? field with
  | some selection => .ok selection
  | none => .error (.unknownOperation field)

def toJson (c : Compilation) : Json :=
  .obj [("order", .ofStrings c.order), ("submodels", c.submodels.toJson),
    ("roots", c.roots.toJson Root.toJson)]

def ofJson? (v : Json) : Option Compilation := do
  return {
    order := ← v.required "order" (Json.toList? Json.toString?)
    submodels := ← v.required "submodels" Arena.ofJson?
    roots := ← v.required "roots" (OrdMap.ofJson? Root.ofJson?) }

end Compilation

end SelectionCompiler
