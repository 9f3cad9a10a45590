import SelectionCompiler.Proofs.Introspection.Reading
import SelectionCompiler.Proofs.Json.Text

/-!
The two sources of a schema. A document of the definition language and an introspection
result that describes its definitions give the same schema: both add the same types one
after the other to the built-in scalars, so a repeated name is settled in the same way,
and both name the operation types that are given.
-/

namespace SelectionCompiler

namespace Schema

open Sdl

def typeDefinitions (types : List (String × Body)) : List Definition :=
  types.map fun type => .type type.1 type.2

variable {types before after : List (String × Body)} {roots : Roots}

theorem foldl_define_typeDefinitions (schema : Schema) :
    (typeDefinitions types).foldl define schema =
      schema.addTypes (types.map fun type => type.2.toTypeDef type.1) := by
  rw [typeDefinitions, addTypes, List.foldl_map, List.foldl_map]
  rfl

/-- A pass that has no regard for type definitions. -/
theorem foldl_typeDefinitions {α : Type} {f : α → Definition → α}
    (h : ∀ a name body, f a (.type name body) = a) (a : α) :
    (typeDefinitions types).foldl f a = a := by
  induction types with
  | nil => rfl
  | cons type rest ih =>
      change (typeDefinitions rest).foldl f (f a (.type type.1 type.2)) = a
      rw [h, ih]

theorem declaredRoots?_typeDefinitions :
    declaredRoots? (typeDefinitions before ++ .roots roots :: typeDefinitions after) =
      some roots := by
  rw [declaredRoots?, List.foldl_append, List.foldl_cons]
  exact foldl_typeDefinitions (fun _ _ _ => rfl) (some roots)

theorem ofDocument_typeDefinitions :
    ofDocument (typeDefinitions before ++ .roots roots :: typeDefinitions after) =
      ((builtin.addTypes ((before ++ after).map fun type => type.2.toTypeDef type.1)).setQueryType
        roots.query).setMutationType roots.mutation := by
  have hroots (schema : Schema) : define schema (.roots roots) = schema := rfl
  have hextend (schema : Schema) :
      (typeDefinitions before ++ .roots roots :: typeDefinitions after).foldl extend schema =
        schema := by
    rw [List.foldl_append, List.foldl_cons, foldl_typeDefinitions fun _ _ _ => rfl]
    exact foldl_typeDefinitions (fun _ _ _ => rfl) schema
  rw [ofDocument, hextend, declaredRoots?_typeDefinitions, List.foldl_append, List.foldl_cons,
    foldl_define_typeDefinitions, hroots, foldl_define_typeDefinitions, List.map_append, addTypes,
    addTypes, addTypes, List.foldl_append]
  rfl

/-- A text with these definitions, one of them naming the operation types, and the text of an
introspection result that describes them have one schema. -/
theorem ofSdl?_eq_ofIntrospection? {sdl json : String} {v : Json}
    (hsdl : Document.ofText? sdl =
      some (typeDefinitions before ++ .roots roots :: typeDefinitions after))
    (hjson : Json.Spells json v) (hnesting : v.nesting ≤ Json.maxNesting)
    (hv : Introspection.Describes (before ++ after) roots v) :
    ∃ schema, ofSdl? sdl = some schema ∧ ofIntrospection? json = some schema := by
  obtain ⟨document, hdocument, hschema⟩ := Introspection.exists_document hv
  refine ⟨ofIntrospectionDocument document, ?_, ?_⟩
  · rw [ofSdl?, hsdl, Option.map_some, ofDocument_typeDefinitions, hschema]
  · rw [ofIntrospection?, hjson.raw?_eq hnesting, Option.bind_some, hdocument, Option.map_some]

/-- Definitions in which a built-in scalar and an earlier type are defined once more, and a
field and an argument are repeated. -/
def repeated : List (String × Body) :=
  [("Node", .interface [⟨"id", [], .nonNull (.named "ID")⟩]), ("ID", .enumeration),
    ("Q", .object [⟨"a", [⟨"x", .list (.nonNull (.named "In"))⟩, ⟨"x", .named "ID"⟩],
      .nonNull (.list (.named "Node"))⟩, ⟨"a", [], .named "U"⟩]),
    ("U", .union), ("Node", .scalar)]

/-- The same definitions as a text, the schema definition in the middle of them. -/
def repeatedText : String :=
  "interface Node \x7b id: ID! \x7d enum ID \x7b A \x7d schema \x7b query: Q \x7d " ++
    "type Q \x7b a(x: [In!], x: ID): [Node]! a: U \x7d union U = Q scalar Node"

/-- The same definitions as an introspection result. -/
def repeatedResult : Json := Introspection.plainDescription repeated ⟨some "Q", none⟩

theorem ofSdl?_eq_ofIntrospection?_repeated :
    (Document.ofText? repeatedText = some (typeDefinitions (repeated.take 2) ++
        .roots ⟨some "Q", none⟩ :: typeDefinitions (repeated.drop 2)) ∧
      Json.Spells repeatedResult.compact repeatedResult ∧
      repeatedResult.nesting ≤ Json.maxNesting ∧
      Introspection.Describes repeated ⟨some "Q", none⟩ repeatedResult) ∧
    ∃ schema, ofSdl? repeatedText = some schema ∧
      ofIntrospection? repeatedResult.compact = some schema := by
  have hsdl : Document.ofText? repeatedText = some (typeDefinitions (repeated.take 2) ++
      .roots ⟨some "Q", none⟩ :: typeDefinitions (repeated.drop 2)) := by
    decide +kernel
  have hjson : Json.Spells repeatedResult.compact repeatedResult :=
    Json.spells_compact (by decide +kernel)
  have hnesting : repeatedResult.nesting ≤ Json.maxNesting := by
    decide +kernel
  have hv : Introspection.Describes repeated ⟨some "Q", none⟩ repeatedResult :=
    Introspection.describes_plainDescription repeated ⟨some "Q", none⟩
  exact ⟨⟨hsdl, hjson, hnesting, hv⟩, ofSdl?_eq_ofIntrospection? hsdl hjson hnesting hv⟩

end Schema

end SelectionCompiler
