import SelectionCompiler.Compilation.Basic
import SelectionCompiler.Proofs.Graph.TypeGraph

/-!
Where operations start. For each kind of operation a schema may name a type, and
the root type is the composite type of that name, if there is one. Its start
fields are its typed fields outside introspection; those of the query type and
then those of the mutation type are the root fields of the schema.
-/

namespace SelectionCompiler

/-- The typed fields outside introspection, in order of declaration. -/
def TypeDef.startFields (type : TypeDef) : List FieldDef :=
  type.fields.values.filter fun field => !isIntrospectionName field.name && field.type.isSome

namespace Schema

variable {schema : Schema}

/-- The name that the schema gives for the type at which operations of a kind start. -/
def rootName? (schema : Schema) : OperationKind → Option String
  | .query => schema.queryType
  | .mutation => schema.mutationType

/-- The schema names no introspection type for operations to start at. -/
def RootsOrdinary (schema : Schema) : Prop :=
  ∀ operation, ∀ name ∈ schema.rootName? operation, isIntrospectionName name = false

instance (schema : Schema) : Decidable schema.RootsOrdinary :=
  decidable_of_iff
    ((∀ name ∈ schema.queryType, isIntrospectionName name = false) ∧
      ∀ name ∈ schema.mutationType, isIntrospectionName name = false) <| by
    constructor
    · rintro ⟨hquery, hmutation⟩ (_ | _)
      · exact hquery
      · exact hmutation
    · exact fun h => ⟨h .query, h .mutation⟩

/-! ### Root types -/

theorem rootType?_eq (schema : Schema) (operation : OperationKind) :
    schema.rootType? operation = (schema.rootName? operation).bind fun name =>
      (schema.get? name).filter fun type => type.kind = .composite := by
  have hfilter (found : Option TypeDef) : (found.bind fun type =>
      if type.kind = .composite then some type else none) =
        found.filter fun type => type.kind = .composite := by
    cases found <;> simp [Option.filter]
  cases operation <;> simp [rootType?, rootName?, hfilter]

theorem rootType?_eq_some_iff {operation : OperationKind} {type : TypeDef} :
    schema.rootType? operation = some type ↔
      ∃ name ∈ schema.rootName? operation,
        schema.get? name = some type ∧ type.kind = .composite := by
  simp only [rootType?_eq, Option.bind_eq_some_iff, Option.filter_eq_some_iff,
    decide_eq_true_eq, Option.mem_def]

theorem RootsOrdinary.rootType?_eq_some_iff (h : schema.RootsOrdinary)
    {operation : OperationKind} {type : TypeDef} :
    schema.rootType? operation = some type ↔
      ∃ name ∈ schema.rootName? operation, schema.Selects name type := by
  rw [Schema.rootType?_eq_some_iff]
  constructor
  · rintro ⟨name, hname, hget, hkind⟩
    exact ⟨name, hname, hget, hkind, h operation name hname⟩
  · rintro ⟨name, hname, hget, hkind, _⟩
    exact ⟨name, hname, hget, hkind⟩

theorem rootTypes_eq (schema : Schema) :
    schema.rootTypes = ((schema.rootType? .query).map (OperationKind.query, ·)).toList ++
      ((schema.rootType? .mutation).map (OperationKind.mutation, ·)).toList := by
  cases hquery : schema.rootType? .query <;> cases hmutation : schema.rootType? .mutation <;>
    simp [rootTypes, hquery, hmutation]

theorem mem_rootTypes {operation : OperationKind} {type : TypeDef} :
    (operation, type) ∈ schema.rootTypes ↔ schema.rootType? operation = some type := by
  cases operation <;> simp [rootTypes_eq]

theorem mem_values_of_rootType? {operation : OperationKind} {type : TypeDef}
    (h : schema.rootType? operation = some type) : type ∈ schema.types.values := by
  obtain ⟨name, _, hget, _⟩ := rootType?_eq_some_iff.mp h
  exact OrdMap.mem_values_iff.mpr ⟨name, hget⟩

/-! ### Root fields -/

/-- The start fields of the type at which operations of a kind start. -/
def startFields (schema : Schema) (operation : OperationKind) : List FieldDef :=
  (schema.rootType? operation).elim [] TypeDef.startFields

theorem mem_startFields {operation : OperationKind} {field : FieldDef} :
    field ∈ schema.startFields operation ↔
      ∃ type, schema.rootType? operation = some type ∧ field ∈ type.fields.values ∧
        isIntrospectionName field.name = false ∧ field.type.isSome = true := by
  unfold startFields
  cases schema.rootType? operation with
  | none => simp
  | some type => simp [TypeDef.startFields]

theorem nodup_names_startFields (hf : schema.FieldsKeyed) (operation : OperationKind) :
    ((schema.startFields operation).map FieldDef.name).Nodup := by
  unfold startFields
  cases htype : schema.rootType? operation with
  | none => exact List.nodup_nil
  | some type =>
      have hnames : (type.fields.values.map FieldDef.name).Nodup := by
        rw [OrdMap.map_values_of_named (hf type (mem_values_of_rootType? htype))]
        exact type.fields.nodup_keys
      exact hnames.sublist (List.filter_sublist.map FieldDef.name)

theorem rootFields_eq (schema : Schema) :
    schema.rootFields = (schema.startFields .query).map (OperationKind.query, ·) ++
      (schema.startFields .mutation).map (OperationKind.mutation, ·) := by
  unfold rootFields startFields
  rw [rootTypes_eq]
  cases schema.rootType? .query <;> cases schema.rootType? .mutation <;>
    simp [TypeDef.startFields]

theorem mem_rootFields {start : OperationKind × FieldDef} :
    start ∈ schema.rootFields ↔ start.2 ∈ schema.startFields start.1 := by
  obtain ⟨operation, field⟩ := start
  cases operation <;> simp [rootFields_eq]

theorem exists_of_mem_rootFields {start : OperationKind × FieldDef}
    (h : start ∈ schema.rootFields) :
    ∃ type ∈ schema.types.values, start.2 ∈ type.fields.values := by
  obtain ⟨type, htype, hfield, _⟩ := mem_startFields.mp (mem_rootFields.mp h)
  exact ⟨type, mem_values_of_rootType? htype, hfield⟩

theorem type_of_mem_rootFields {start : OperationKind × FieldDef}
    (h : start ∈ schema.rootFields) : ∃ reference, start.2.type = some reference := by
  obtain ⟨_, _, _, _, htype⟩ := mem_startFields.mp (mem_rootFields.mp h)
  exact Option.isSome_iff_exists.mp htype

end Schema

end SelectionCompiler
