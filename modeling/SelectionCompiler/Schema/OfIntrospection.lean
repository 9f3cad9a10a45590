import SelectionCompiler.Introspection.Document
import SelectionCompiler.Json.Parser
import SelectionCompiler.Schema.Basic

/-!
The schema of an introspection result. Types without a name or of an unknown kind
are passed over, and so are arguments whose type cannot be told; a field keeps
its place without a type. The operation types are those that the result names.
-/

namespace SelectionCompiler

namespace Introspection

/-- The kind of type that a kind of introspection stands for. -/
def typeKind? : String → Option TypeKind
  | "OBJECT" | "INTERFACE" | "UNION" => some .composite
  | "SCALAR" => some .scalar
  | "ENUM" => some .enumeration
  | "INPUT_OBJECT" => some .input
  | _ => none

def InputValue.toArgumentDef? (a : InputValue) : Option ArgumentDef := do
  return ⟨a.name, ← (← a.type).toTypeRef?⟩

def Field.toFieldDef (f : Field) : FieldDef :=
  ⟨f.name, f.type.bind (·.toTypeRef?), f.arguments.filterMap (·.toArgumentDef?)⟩

def FullType.toTypeDef? (t : FullType) : Option TypeDef := do
  let name ← t.name
  let kind ← typeKind? t.kind
  return (TypeDef.bare name kind).addFields ((t.fields.getD []).map Field.toFieldDef)

end Introspection

namespace Schema

def ofIntrospectionDocument (document : Introspection.Document) : Schema :=
  ((builtin.addTypes (document.types.filterMap (·.toTypeDef?))).setQueryType document.queryType)
    |>.setMutationType document.mutationType

/-- The schema of the JSON text of an introspection result. -/
def ofIntrospection? (text : String) : Option Schema :=
  ((Json.raw? text).bind Introspection.Document.ofJson?).map ofIntrospectionDocument

end Schema

end SelectionCompiler
