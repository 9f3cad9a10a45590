import SelectionCompiler.Json.Decode
import SelectionCompiler.Schema.Basic

/-!
The JSON form of schemas. Maps become objects in the order of their keys; a
reference is an object with one member that names its outermost layer; a field
without arguments leaves them out. Schemas, types, fields and arguments are read from
objects alone, not from arrays of the values of their members.
-/

namespace SelectionCompiler

namespace OrdMap

/-- The object with one member for each entry. -/
def toJson {α : Type} (encode : α → Json) (m : OrdMap α) : Json :=
  .obj (m.toList.map fun e => (e.1, encode e.2))

def ofJson? {α : Type} (decode : Json → Option α) (v : Json) : Option (OrdMap α) := do
  let members ← v.toMembers?
  return .ofList (← members.mapM fun m => (decode m.2).map fun a => (m.1, a))

end OrdMap

namespace TypeRef

def toJson : TypeRef → Json
  | .named name => .obj [("named", .str name)]
  | .list item => .obj [("list", item.toJson)]
  | .nonNull inner => .obj [("non_null", inner.toJson)]

def ofJson? : Json → Option TypeRef
  | .obj [(key, v)] =>
      match key, v with
      | "named", .str name => some (.named name)
      | "list", v => (ofJson? v).map .list
      | "non_null", v => (ofJson? v).map .nonNull
      | _, _ => none
  | _ => none

end TypeRef

namespace TypeKind

def ofJson? (v : Json) : Option TypeKind := v.toCase?.bind ofText?

end TypeKind

namespace OperationKind

def ofJson? (v : Json) : Option OperationKind := v.toCase?.bind ofText?

end OperationKind

namespace ArgumentDef

def toJson (a : ArgumentDef) : Json := .obj [("name", .str a.name), ("ty", a.type.toJson)]

def ofJson? (v : Json) : Option ArgumentDef := do
  return ⟨← v.required "name" Json.toString?, ← v.required "ty" TypeRef.ofJson?⟩

end ArgumentDef

namespace FieldDef

def toJson (f : FieldDef) : Json :=
  .obj ([("name", .str f.name), ("ty", (f.type.map TypeRef.toJson).getD .null)]
    ++ if f.arguments.isEmpty then [] else [("arguments", .arr (f.arguments.map (·.toJson)))])

def ofJson? (v : Json) : Option FieldDef := do
  return {
    name := ← v.required "name" Json.toString?
    type := ← v.optional "ty" TypeRef.ofJson?
    arguments := ← v.defaulted "arguments" [] (Json.toList? ArgumentDef.ofJson?) }

end FieldDef

namespace TypeDef

def toJson (t : TypeDef) : Json :=
  .obj [("name", .str t.name), ("kind", .str t.kind.text),
    ("fields", t.fields.toJson FieldDef.toJson)]

def ofJson? (v : Json) : Option TypeDef := do
  return {
    name := ← v.required "name" Json.toString?
    kind := ← v.required "kind" TypeKind.ofJson?
    fields := ← v.defaulted "fields" ∅ (OrdMap.ofJson? FieldDef.ofJson?) }

end TypeDef

namespace Schema

def toJson (s : Schema) : Json :=
  .obj [("types", s.types.toJson TypeDef.toJson),
    ("query_type", Json.ofOptionString s.queryType),
    ("mutation_type", Json.ofOptionString s.mutationType)]

def ofJson? (v : Json) : Option Schema := do
  return {
    types := ← v.required "types" (OrdMap.ofJson? TypeDef.ofJson?)
    queryType := ← v.optional "query_type" Json.toString?
    mutationType := ← v.optional "mutation_type" Json.toString? }

end Schema

end SelectionCompiler
