import SelectionCompiler.Proofs.Schema.Extensions
import SelectionCompiler.Proofs.Schema.Roots
import SelectionCompiler.Schema.OfIntrospection

/-!
Schemas in the course of their changes. A schema comes from a source and is then changed, by
adding types and by naming the types at which operations start. Main statement: after any
changes each type stands under its own name, the names stand in the order in which they were
first added, under each of them stands the type that was added last, and operations start at the
composite types among those that were named last.

A source adds types one after the other, too. A document also extends types; it might as well
have added each type with the fields of all extensions of that name.
-/

namespace SelectionCompiler

namespace Sdl.Document

/-- The type with the fields of all extensions of its name. -/
def extended (d : Document) (type : TypeDef) : TypeDef :=
  type.addFields ((d.extensionFields type.name).map Field.toFieldDef)

/-- The built-in scalars and then the types that are defined, with what extends them. -/
def types (d : Document) : List TypeDef :=
  (Schema.builtinTypes ++ d.definedTypes).map (extended d)

end Sdl.Document

/-- The built-in scalars and then the types that have a name and a known kind. -/
def Introspection.Document.typeDefs (d : Document) : List TypeDef :=
  Schema.builtinTypes ++ d.types.filterMap (·.toTypeDef?)

namespace Schema

/-- Where a schema comes from. -/
inductive Source where
  | empty
  | builtin
  | sdl (text : String)
  | introspection (text : String)

namespace Source

/-- The schema of the source; a text may not be readable. -/
def schema? : Source → Option Schema
  | .empty => some Schema.empty
  | .builtin => some Schema.builtin
  | .sdl text => ofSdl? text
  | .introspection text => ofIntrospection? text

/-- The types that the source adds, one after the other. -/
def types : Source → List TypeDef
  | .empty => []
  | .builtin => builtinTypes
  | .sdl text => (Sdl.Document.ofText? text).elim [] Sdl.Document.types
  | .introspection text =>
      ((Json.raw? text).bind Introspection.Document.ofJson?).elim [] (·.typeDefs)

end Source

/-- A change of a schema: a type is added, or a name is given, or none, for the type at which
operations of a kind start. -/
inductive Change where
  | add (type : TypeDef)
  | setRoot (operation : OperationKind) (name : Option String)

namespace Change

def apply (schema : Schema) : Change → Schema
  | .add type => schema.addType type
  | .setRoot .query name => schema.setQueryType name
  | .setRoot .mutation name => schema.setMutationType name

/-- The type that is added. -/
def type? : Change → Option TypeDef
  | .add type => some type
  | .setRoot _ _ => none

/-- What is said of the type at which operations of a kind start. -/
def rootName? (operation : OperationKind) : Change → Option (Option String)
  | .setRoot set name => if set = operation then some name else none
  | .add _ => none

end Change

/-- The types that the source and then the changes add, one after the other. -/
def added (source : Source) (changes : List Change) : List TypeDef :=
  source.types ++ changes.filterMap Change.type?

/-- The schema after changes, one after the other. -/
def run (schema : Schema) (changes : List Change) : Schema := changes.foldl Change.apply schema

/-- What a schema is to be after changes of the one that comes from a source. -/
structure WellKeyed (source : Source) (changes : List Change) (schema : Schema) : Prop where
  typesKeyed : schema.TypesKeyed
  /-- The distinct names, in the order in which they were first added. -/
  names : schema.types.values.map TypeDef.name =
    ((added source changes).map TypeDef.name).eraseDups
  /-- What is listed under a name is what was added last under it. -/
  listed : ∀ type ∈ schema.types.values, latest? (added source changes) type.name = some type
  found : ∀ name, schema.get? name = latest? (added source changes) name
  builtins : source ≠ .empty → builtinScalars <+: schema.types.values.map TypeDef.name
  /-- Only changes can add types that have fields under other names than their own. -/
  fieldsKeyed : ∀ type ∈ schema.types.values, type ∉ changes.filterMap Change.type? →
    type.FieldsKeyed
  /-- The name that was set last, or else the one from the source. -/
  rootName : ∀ operation, schema.rootName? operation =
    (changes.filterMap (Change.rootName? operation)).getLast?.getD
      (source.schema?.bind (·.rootName? operation))
  /-- At most one root type for queries and then one for mutations. -/
  rootKinds : (schema.rootTypes.map Prod.fst).Sublist [.query, .mutation]
  root : ∀ operation type, (operation, type) ∈ schema.rootTypes ↔
    ∃ name, schema.rootName? operation = some name ∧ schema.get? name = some type ∧
      type.kind = .composite

variable {schema start : Schema} {source : Source}

/-! ### Sources -/

theorem map_name_builtinTypes : builtinTypes.map TypeDef.name = builtinScalars := rfl

theorem fieldsKeyed_of_mem_builtinTypes {type : TypeDef} (h : type ∈ builtinTypes) :
    type.FieldsKeyed := by
  obtain ⟨name, _, rfl⟩ := List.mem_map.mp h
  exact TypeDef.bare_fieldsKeyed name .scalar

theorem name_extended (d : Sdl.Document) (type : TypeDef) :
    (Sdl.Document.extended d type).name = type.name :=
  TypeDef.name_addFields _ _

theorem map_name_types (d : Sdl.Document) :
    (Sdl.Document.types d).map TypeDef.name = builtinScalars ++ d.typeNames := by
  rw [Sdl.Document.types, List.map_map, ← map_name_definedTypes, ← map_name_builtinTypes,
    ← List.map_append]
  exact List.map_congr_left fun type _ => name_extended d type

theorem records_ofDocument (d : Sdl.Document) : (ofDocument d).Records d.types := by
  have hdefined : (d.foldl define builtin).Records (builtinTypes ++ d.definedTypes) := by
    rw [foldl_define, Records, addTypes_append]
    rfl
  have hkeyed := hdefined.typesKeyed
  -- extensions move no name, and add to what was defined last under theirs
  apply Records.of_get?_eq
  · change (d.foldl extend (d.foldl define builtin)).types.keys = _
    rw [keys_foldl_extend hkeyed, hdefined.keys_eq, map_name_types, List.map_append,
      map_name_builtinTypes, map_name_definedTypes]
  · intro name
    change (d.foldl extend (d.foldl define builtin)).get? name = _
    rw [get?_foldl_extend hkeyed, hdefined.get?_eq, Sdl.Document.types,
      latest?_map (name_extended d)]
    cases hlatest : latest? (builtinTypes ++ d.definedTypes) name with
    | none => rfl
    | some type =>
        rw [Option.map_some, Option.map_some, Sdl.Document.extended, name_of_latest? hlatest]

theorem fieldsKeyed_of_mem_types {d : Sdl.Document} {type : TypeDef} (h : type ∈ d.types) :
    type.FieldsKeyed := by
  obtain ⟨before, hbefore, rfl⟩ := List.mem_map.mp h
  apply TypeDef.addFields_fieldsKeyed
  rcases List.mem_append.mp hbefore with hbuiltin | hdefined
  · exact fieldsKeyed_of_mem_builtinTypes hbuiltin
  · obtain ⟨definition, _, htype⟩ := List.mem_filterMap.mp hdefined
    cases definition with
    | roots _ | extension _ _ | directive => cases htype
    | type name body =>
        obtain rfl := Option.some.inj htype
        exact TypeDef.addFields_fieldsKeyed (TypeDef.bare_fieldsKeyed _ _) _

theorem records_ofIntrospectionDocument (d : Introspection.Document) :
    (ofIntrospectionDocument d).Records d.typeDefs := by
  rw [Records, Introspection.Document.typeDefs, addTypes_append]
  rfl

theorem fieldsKeyed_of_mem_typeDefs {d : Introspection.Document} {type : TypeDef}
    (h : type ∈ d.typeDefs) : type.FieldsKeyed := by
  rcases List.mem_append.mp h with hbuiltin | htold
  · exact fieldsKeyed_of_mem_builtinTypes hbuiltin
  · obtain ⟨full, _, htype⟩ := List.mem_filterMap.mp htold
    simp only [Introspection.FullType.toTypeDef?, Option.bind_eq_bind, Option.bind_eq_some_iff,
      Option.pure_def, Option.some.injEq] at htype
    obtain ⟨name, _, kind, _, rfl⟩ := htype
    exact TypeDef.addFields_fieldsKeyed (TypeDef.bare_fieldsKeyed _ _) _

/-- The types of a source are those of its schema, the built-in scalars being the first unless
there are none, and none of them has a field under another name. -/
structure Source.Gives (source : Source) (schema : Schema) : Prop where
  records : schema.Records source.types
  builtins : source ≠ .empty → builtinScalars <+: source.types.map TypeDef.name
  fieldsKeyed : ∀ type ∈ source.types, type.FieldsKeyed

theorem Source.gives (h : source.schema? = some schema) : source.Gives schema := by
  cases source with
  | empty =>
      obtain rfl := Option.some.inj h
      exact ⟨rfl, fun hsource => absurd rfl hsource, nofun⟩
  | builtin =>
      obtain rfl := Option.some.inj h
      exact ⟨rfl, fun _ => List.prefix_rfl, fun _ => fieldsKeyed_of_mem_builtinTypes⟩
  | sdl text =>
      obtain ⟨d, hd, rfl⟩ := Option.map_eq_some_iff.mp h
      have htypes : (sdl text).types = d.types := by rw [types, hd, Option.elim_some]
      constructor <;> rw [htypes]
      case records => exact records_ofDocument d
      case builtins => exact fun _ => map_name_types d ▸ List.prefix_append _ _
      case fieldsKeyed => exact fun _ => fieldsKeyed_of_mem_types
  | introspection text =>
      obtain ⟨d, hd, rfl⟩ := Option.map_eq_some_iff.mp h
      have htypes : (introspection text).types = d.typeDefs := by rw [types, hd, Option.elim_some]
      constructor <;> rw [htypes]
      case records => exact records_ofIntrospectionDocument d
      case builtins =>
        intro _
        rw [Introspection.Document.typeDefs, List.map_append, map_name_builtinTypes]
        exact List.prefix_append _ _
      case fieldsKeyed => exact fun _ => fieldsKeyed_of_mem_typeDefs

/-! ### Changes -/

theorem Records.apply {added : List TypeDef} (h : schema.Records added) (change : Change) :
    (change.apply schema).Records (added ++ change.type?.toList) := by
  cases change with
  | add type => exact h.addType type
  | setRoot operation name =>
      rw [Change.type?, Option.toList_none, List.append_nil]
      cases operation <;> exact h

theorem Records.run {added : List TypeDef} (h : schema.Records added) (changes : List Change) :
    (schema.run changes).Records (added ++ changes.filterMap Change.type?) := by
  induction changes generalizing schema added with
  | nil => simpa [Schema.run] using h
  | cons change rest ih =>
      have hadded : added ++ (change :: rest).filterMap Change.type? =
          (added ++ change.type?.toList) ++ rest.filterMap Change.type? := by
        cases htype : change.type? <;> simp [htype]
      rw [hadded]
      exact ih (h.apply change)

theorem rootName?_apply (schema : Schema) (change : Change) (operation : OperationKind) :
    (change.apply schema).rootName? operation =
      (change.rootName? operation).getD (schema.rootName? operation) := by
  cases change with
  | add type => cases operation <;> rfl
  | setRoot set name => cases set <;> cases operation <;> rfl

theorem rootName?_run (schema : Schema) (changes : List Change) (operation : OperationKind) :
    (schema.run changes).rootName? operation =
      (changes.filterMap (Change.rootName? operation)).getLast?.getD
        (schema.rootName? operation) := by
  induction changes generalizing schema with
  | nil => rfl
  | cons change rest ih =>
      change ((change.apply schema).run rest).rootName? operation = _
      rw [ih, rootName?_apply, List.filterMap_cons]
      cases change.rootName? operation with
      | none => rfl
      | some name => rw [List.getLast?_cons, Option.getD_some, Option.getD_some]

theorem rootKinds_sublist (schema : Schema) :
    (schema.rootTypes.map Prod.fst).Sublist [.query, .mutation] := by
  rw [rootTypes_eq]
  cases schema.rootType? .query <;> cases schema.rootType? .mutation <;> simp

/-- Changes keep a schema keyed by names and recording what was added last. -/
theorem wellKeyed_run (h : source.schema? = some start) (changes : List Change) :
    WellKeyed source changes (start.run changes) := by
  obtain ⟨hstart, hbuiltins, hfields⟩ := Source.gives h
  have hrecords : (start.run changes).Records (added source changes) := hstart.run changes
  have hnames := (OrdMap.map_values_of_named hrecords.typesKeyed).trans hrecords.keys_eq
  constructor
  case typesKeyed => exact hrecords.typesKeyed
  case names => exact hnames
  case listed =>
    intro type htype
    rw [← hrecords.get?_eq]
    exact OrdMap.get?_of_mem_values hrecords.typesKeyed htype
  case found => exact hrecords.get?_eq
  case builtins =>
    intro hsource
    obtain ⟨rest, hrest⟩ := hbuiltins hsource
    rw [hnames, added, List.map_append, ← hrest, List.append_assoc, List.eraseDups_append]
    exact List.prefix_append _ _
  case fieldsKeyed =>
    intro type htype hchanges
    rcases List.mem_append.mp (hrecords.mem_of_mem_values htype) with hsource | hadded
    · exact hfields type hsource
    · exact absurd hadded hchanges
  case rootName =>
    intro operation
    rw [rootName?_run, h, Option.bind_some]
  case rootKinds => exact rootKinds_sublist _
  case root =>
    intro operation type
    rw [mem_rootTypes, rootType?_eq_some_iff]
    rfl

/-- An extension that comes first, and a built-in scalar that is defined as an object. -/
def watched : Sdl.Document :=
  [.extension "Query" (.object [⟨"now", [], .named "ID"⟩]),
    .type "Query" (.object [⟨"was", [], .named "Int"⟩]),
    .type "ID" (.object [⟨"raw", [], .named "Int"⟩])]

def watchedText : String :=
  "extend type Query\x7bnow:ID\x7d type Query\x7bwas:Int\x7d type ID\x7braw:Int\x7d"

/-- A type with a field under another name is added and replaced, queries are to start at what
was a scalar, and mutations at a scalar. -/
def watchedChanges : List Change :=
  [.add ⟨"Feed", .composite, .ofList [("alias", ⟨"item", none, []⟩)]⟩, .add (.bare "Feed" .input),
    .setRoot .mutation (some "Feed"), .setRoot .query (some "ID"), .setRoot .mutation (some "Int")]

theorem wellKeyed_run_watched :
    Source.schema? (.sdl watchedText) = some (ofDocument watched) ∧
      WellKeyed (.sdl watchedText) watchedChanges ((ofDocument watched).run watchedChanges) ∧
      ((ofDocument watched).run watchedChanges).types.values.map TypeDef.name =
        builtinScalars ++ ["Query", "Feed"] ∧
      ((ofDocument watched).run watchedChanges).rootTypes.map (fun root => (root.1, root.2.name)) =
        [(.query, "ID")] := by
  have htext : Sdl.Document.ofText? watchedText = some watched := by
    decide +kernel
  have hschema : Source.schema? (.sdl watchedText) = some (ofDocument watched) := by
    rw [Source.schema?, ofSdl?, htext, Option.map_some]
  exact ⟨hschema, wellKeyed_run hschema watchedChanges, by decide +kernel, by decide +kernel⟩

end Schema

end SelectionCompiler
