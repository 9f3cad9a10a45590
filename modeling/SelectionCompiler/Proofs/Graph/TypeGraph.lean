import SelectionCompiler.Graph.TypeGraph
import SelectionCompiler.Proofs.OrdMap

/-!
The type graph of a schema that stores each type under its own name. Its types are
the composite types outside introspection, in order of declaration; its fields
are their typed fields outside introspection. Main statement: a field counts as
composite exactly when its target is a type of the graph, so the test by kind and
the test by membership agree.
-/

namespace SelectionCompiler

namespace Schema

/-- Each type stands under its own name. -/
def TypesKeyed (schema : Schema) : Prop :=
  ∀ entry ∈ schema.types.toList, entry.2.name = entry.1

instance (schema : Schema) : Decidable schema.TypesKeyed :=
  inferInstanceAs (Decidable (∀ entry ∈ schema.types.toList, entry.2.name = entry.1))

/-- Each field of each type stands under its own name. -/
def FieldsKeyed (schema : Schema) : Prop :=
  ∀ type ∈ schema.types.values, ∀ entry ∈ type.fields.toList, entry.2.name = entry.1

instance (schema : Schema) : Decidable schema.FieldsKeyed :=
  inferInstanceAs
    (Decidable (∀ type ∈ schema.types.values, ∀ entry ∈ type.fields.toList,
      entry.2.name = entry.1))

/-- The name of a composite type outside introspection, and the type. -/
def Selects (schema : Schema) (name : String) (type : TypeDef) : Prop :=
  schema.get? name = some type ∧ type.kind = .composite ∧ isIntrospectionName name = false

instance (schema : Schema) (name : String) (type : TypeDef) :
    Decidable (schema.Selects name type) :=
  inferInstanceAs (Decidable (_ ∧ _ ∧ _))

variable {schema : Schema}

theorem name_of_get? (h : schema.TypesKeyed) {name : String} {type : TypeDef}
    (hget : schema.get? name = some type) : type.name = name :=
  h (name, type) (OrdMap.get?_eq_some_iff.mp hget)

theorem addType_typesKeyed (h : schema.TypesKeyed) (type : TypeDef) :
    (schema.addType type).TypesKeyed :=
  OrdMap.named_insert h type

theorem Selects.name_eq (h : schema.TypesKeyed) {name : String} {type : TypeDef}
    (hsel : schema.Selects name type) : type.name = name :=
  name_of_get? h hsel.1

theorem Selects.unique {name : String} {type other : TypeDef}
    (h : schema.Selects name type) (h' : schema.Selects name other) : type = other :=
  Option.some.inj (h.1.symm.trans h'.1)

theorem targetKind_eq_composite_iff {target : String} :
    schema.targetKind target = .composite ↔ ∃ type, schema.Selects target type := by
  unfold targetKind Selects
  constructor
  · intro h
    split at h
    · rename_i hcond
      simp only [Bool.and_eq_true, decide_eq_true_eq, Bool.not_eq_true', kindOf?,
        Option.map_eq_some_iff] at hcond
      obtain ⟨⟨type, hget, hkind⟩, hname⟩ := hcond
      exact ⟨type, hget, hkind, hname⟩
    · cases h
  · rintro ⟨type, hget, hkind, hname⟩
    simp [kindOf?, hget, hkind, hname]

end Schema

/-! ### Typed fields -/

namespace TypeDef

/-- The names and types of the typed fields outside introspection, in order of
declaration. -/
def typedFields (type : TypeDef) : List (String × TypeRef) :=
  type.fields.values.filterMap fun field =>
    if isIntrospectionName field.name then none
    else field.type.map fun reference => (field.name, reference)

theorem mem_typedFields {type : TypeDef} {name : String} {reference : TypeRef} :
    (name, reference) ∈ type.typedFields ↔
      ∃ field ∈ type.fields.values, field.name = name ∧
        isIntrospectionName name = false ∧ field.type = some reference := by
  simp only [typedFields, List.mem_filterMap]
  constructor
  · rintro ⟨field, hmem, hsome⟩
    split at hsome
    · cases hsome
    · rename_i hname
      obtain ⟨found, htype, heq⟩ := Option.map_eq_some_iff.mp hsome
      obtain ⟨rfl, rfl⟩ := Prod.mk.inj heq
      exact ⟨field, hmem, rfl, by simpa using hname, htype⟩
  · rintro ⟨field, hmem, rfl, hname, htype⟩
    exact ⟨field, hmem, by simp [hname, htype]⟩

end TypeDef

namespace Schema

variable {schema : Schema}

/-- A typed field as a node of the graph sees it. -/
def targetOf (schema : Schema) (field : String × TypeRef) : FieldTarget :=
  ⟨field.1, field.2.target, schema.targetKind field.2.target⟩

theorem fieldTargets_eq (schema : Schema) (type : TypeDef) :
    schema.fieldTargets type = type.typedFields.map schema.targetOf := by
  simp only [fieldTargets, TypeDef.typedFields, List.map_filterMap]
  congr 1
  funext field
  simp only [fieldTarget?]
  split
  · rfl
  · simp [Option.map_map, Function.comp_def, targetOf]

/-! ### The graph -/

theorem exists_of_contains_typeGraph {name : String}
    (h : schema.typeGraph.contains name = true) :
    ∃ type ∈ schema.types.values, type.name = name := by
  rw [TypeGraph.contains, OrdMap.contains_iff, typeGraph, OrdMap.mem_keys_ofList, List.map_map,
    List.mem_map] at h
  obtain ⟨type, hmem, rfl⟩ := h
  exact ⟨type, (List.mem_filter.mp hmem).1, rfl⟩

theorem typeGraph_toList (h : schema.TypesKeyed) :
    schema.typeGraph.types.toList =
      (schema.types.values.filter isSelectable).map fun type =>
        (type.name, schema.fieldTargets type) := by
  apply OrdMap.toList_ofList
  rw [List.map_map]
  have hnames : (schema.types.values.map TypeDef.name).Nodup := by
    rw [OrdMap.map_values_of_named h]
    exact schema.types.nodup_keys
  exact hnames.sublist (List.filter_sublist.map TypeDef.name)

theorem fields?_typeGraph_eq_some_iff (h : schema.TypesKeyed) {name : String}
    {fields : List FieldTarget} :
    schema.typeGraph.fields? name = some fields ↔
      ∃ type, schema.Selects name type ∧ fields = schema.fieldTargets type := by
  rw [TypeGraph.fields?, OrdMap.get?_eq_some_iff, typeGraph_toList h, List.mem_map]
  constructor
  · rintro ⟨type, hmem, heq⟩
    obtain ⟨rfl, rfl⟩ := Prod.mk.inj heq
    obtain ⟨hvalue, hsel⟩ := List.mem_filter.mp hmem
    simp only [isSelectable, Bool.and_eq_true, decide_eq_true_eq, Bool.not_eq_true'] at hsel
    exact ⟨type, ⟨OrdMap.get?_of_mem_values h hvalue, hsel⟩, rfl⟩
  · rintro ⟨type, hsel, rfl⟩
    obtain rfl := hsel.name_eq h
    refine ⟨type, List.mem_filter.mpr ⟨OrdMap.mem_values_iff.mpr ⟨_, hsel.1⟩, ?_⟩, rfl⟩
    simp [isSelectable, hsel.2.1, hsel.2.2]

theorem fields_typeGraph (h : schema.TypesKeyed) {name : String} {type : TypeDef}
    (hsel : schema.Selects name type) :
    schema.typeGraph.fields name = schema.fieldTargets type := by
  rw [TypeGraph.fields, (fields?_typeGraph_eq_some_iff h).mpr ⟨type, hsel, rfl⟩]
  rfl

theorem contains_typeGraph_iff (h : schema.TypesKeyed) {name : String} :
    schema.typeGraph.contains name = true ↔ ∃ type, schema.Selects name type := by
  rw [TypeGraph.contains, OrdMap.contains_iff, OrdMap.mem_keys_iff]
  constructor
  · rintro ⟨fields, hfields⟩
    obtain ⟨type, hsel, _⟩ := (fields?_typeGraph_eq_some_iff h).mp hfields
    exact ⟨type, hsel⟩
  · rintro ⟨type, hsel⟩
    exact ⟨_, (fields?_typeGraph_eq_some_iff h).mpr ⟨type, hsel, rfl⟩⟩

theorem fields_typeGraph_of_not_selects (h : schema.TypesKeyed) {name : String}
    (hsel : ¬∃ type, schema.Selects name type) : schema.typeGraph.fields name = [] := by
  have hnone : schema.typeGraph.fields? name = none := by
    rw [Option.eq_none_iff_forall_ne_some]
    intro fields hfields
    obtain ⟨type, hsome, _⟩ := (fields?_typeGraph_eq_some_iff h).mp hfields
    exact hsel ⟨type, hsome⟩
  rw [TypeGraph.fields, hnone]
  rfl

end Schema

theorem TypeGraph.mem_names_of_mem_fields {g : TypeGraph} {type : String} {field : FieldTarget}
    (h : field ∈ g.fields type) : type ∈ g.names := by
  by_contra hnone
  rw [fields, fields?, OrdMap.get?_eq_none_iff.mpr hnone] at h
  cases h

/-- A field of the graph counts as composite exactly when the graph holds its target. -/
def TypeGraph.Closed (g : TypeGraph) : Prop :=
  ∀ type, ∀ field ∈ g.fields type, field.isComposite = true ↔ g.contains field.target = true

theorem Schema.isComposite_targetOf {schema : Schema} (h : schema.TypesKeyed)
    (field : String × TypeRef) :
    (schema.targetOf field).isComposite = true ↔
      schema.typeGraph.contains field.2.target = true := by
  rw [contains_typeGraph_iff h, ← targetKind_eq_composite_iff]
  exact decide_eq_true_iff

theorem Schema.typeGraph_closed {schema : Schema} (h : schema.TypesKeyed) :
    schema.typeGraph.Closed := by
  intro name field hfield
  by_cases hsel : ∃ type, schema.Selects name type
  · obtain ⟨type, hsel⟩ := hsel
    rw [fields_typeGraph h hsel, fieldTargets_eq] at hfield
    obtain ⟨typed, _, rfl⟩ := List.mem_map.mp hfield
    exact isComposite_targetOf h typed
  · rw [fields_typeGraph_of_not_selects h hsel] at hfield
    cases hfield

end SelectionCompiler
