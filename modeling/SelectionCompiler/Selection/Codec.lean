import SelectionCompiler.Schema.Codec
import SelectionCompiler.Selection.Arena

/-!
The JSON form of selections and of what holds them. An element is an object with
one member that names its kind. What a nested selection holds is the array of its name
and its elements; references, submodels, roots and arenas are read from objects alone,
not from arrays of the values of their members.
-/

namespace SelectionCompiler

namespace Element

mutual

def toJson : Element → Json
  | .field name => .obj [("field", .str name)]
  | .nested name children => .obj [("nested", .arr [.str name, .arr (listToJson children)])]
  | .reference name type =>
      .obj [("reference", .obj [("field", .str name), ("descriptor", .str type)])]

def listToJson : List Element → List Json
  | [] => []
  | e :: rest => e.toJson :: listToJson rest

end

mutual

def ofJson? : Json → Option Element
  | .obj [(key, .str name)] => if key = "field" then some (.field name) else none
  | .obj [(key, .arr [.str name, .arr items])] =>
      if key = "nested" then (listOfJson? items).map (.nested name) else none
  | .obj [(key, .obj members)] =>
      if key = "reference" then do
        return .reference (← (Json.obj members).required "field" Json.toString?)
          (← (Json.obj members).required "descriptor" Json.toString?)
      else none
  | _ => none

def listOfJson? : List Json → Option (List Element)
  | [] => some []
  | v :: rest =>
      match ofJson? v, listOfJson? rest with
      | some e, some es => some (e :: es)
      | _, _ => none

end

end Element

namespace Selection

def toJson (s : Selection) : Json := .arr (Element.listToJson s)

def ofJson? : Json → Option Selection
  | .arr items => Element.listOfJson? items
  | _ => none

end Selection

namespace Submodel

def toJson (m : Submodel) : Json :=
  .obj [("type_name", .str m.typeName), ("depth", .ofNat m.depth),
    ("selection", m.selection.toJson)]

def ofJson? (v : Json) : Option Submodel := do
  return {
    typeName := ← v.required "type_name" Json.toString?
    depth := ← v.required "depth" Json.toNat?
    selection := ← v.required "selection" Selection.ofJson? }

end Submodel

namespace Root

def toJson (r : Root) : Json :=
  .obj [("field", .str r.field), ("operation", .str r.operation.keyword),
    ("return_type", .str r.returnType), ("depth", .ofNat r.depth),
    ("selection", r.selection.toJson)]

def ofJson? (v : Json) : Option Root := do
  return {
    field := ← v.required "field" Json.toString?
    operation := ← v.required "operation" OperationKind.ofJson?
    returnType := ← v.required "return_type" Json.toString?
    depth := ← v.required "depth" Json.toNat?
    selection := ← v.required "selection" Selection.ofJson? }

end Root

namespace Arena

def toJson (a : Arena) : Json := .obj [("entries", a.entries.toJson Submodel.toJson)]

def ofJson? (v : Json) : Option Arena := do
  return ⟨← v.required "entries" (OrdMap.ofJson? Submodel.ofJson?)⟩

end Arena

end SelectionCompiler
