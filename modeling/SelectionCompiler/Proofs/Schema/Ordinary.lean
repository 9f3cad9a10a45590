import SelectionCompiler.Proofs.Compilation.Closed
import SelectionCompiler.StaticModule.OfCompilation

/-!
The ordinary part of a schema: what is left of it without the types and the fields that
have introspection names. Main statement: the ordinary part has the same compilation as
the schema, down to the order of its types, and so the same static module.

A deleted type can have been the target of a field that stays. That field was a leaf
already, because a target with an introspection name is never composite.
-/

namespace SelectionCompiler

namespace TypeDef

/-- The type without its introspection fields. -/
def ordinary (type : TypeDef) : TypeDef :=
  { type with fields := type.fields.filter fun field => !isIntrospectionName field.name }

@[simp] theorem name_ordinary (type : TypeDef) : type.ordinary.name = type.name := rfl

@[simp] theorem kind_ordinary (type : TypeDef) : type.ordinary.kind = type.kind := rfl

@[simp] theorem values_fields_ordinary (type : TypeDef) :
    type.ordinary.fields.values =
      type.fields.values.filter fun field => !isIntrospectionName field.name :=
  OrdMap.values_filter _ _

theorem startFields_ordinary (type : TypeDef) : type.ordinary.startFields = type.startFields := by
  rw [startFields, startFields, values_fields_ordinary, List.filter_filter]
  apply List.filter_congr
  intro field _
  cases isIntrospectionName field.name <;> simp

theorem typedFields_ordinary (type : TypeDef) : type.ordinary.typedFields = type.typedFields := by
  rw [typedFields, typedFields, values_fields_ordinary, List.filterMap_filter]
  apply List.filterMap_congr
  intro field _
  cases isIntrospectionName field.name <;> simp

end TypeDef

namespace Schema

/-- The schema without introspection types and introspection fields. -/
def ordinary (schema : Schema) : Schema :=
  { schema with
    types := (schema.types.filter fun type => !isIntrospectionName type.name).mapValues
      TypeDef.ordinary }

variable {schema : Schema}

theorem values_types_ordinary (schema : Schema) :
    schema.ordinary.types.values =
      (schema.types.values.filter fun type => !isIntrospectionName type.name).map
        TypeDef.ordinary := by
  rw [ordinary, OrdMap.values_mapValues, OrdMap.values_filter]

/-- Types that are picked by their names and kinds are those of the schema, if no type with
an introspection name is among them. -/
theorem filter_types_ordinary (schema : Schema) {p : TypeDef → Bool}
    (hkeep : ∀ type : TypeDef, p type.ordinary = p type)
    (hname : ∀ type, p type = true → isIntrospectionName type.name = false) :
    schema.ordinary.types.values.filter p =
      (schema.types.values.filter p).map TypeDef.ordinary := by
  rw [values_types_ordinary, List.filter_map, List.filter_filter]
  congr 1
  apply List.filter_congr
  intro type _
  rw [Function.comp_apply, hkeep]
  cases hpick : p type with
  | false => rfl
  | true => simp [hname type hpick]

theorem get?_ordinary (h : schema.TypesKeyed) (name : String) :
    schema.ordinary.get? name =
      if isIntrospectionName name = true then none
      else (schema.get? name).map TypeDef.ordinary := by
  rw [get?, ordinary, OrdMap.get?_mapValues, OrdMap.get?_filter, ← get?]
  cases hget : schema.get? name with
  | none => simp
  | some type =>
      have hname := name_of_get? h hget
      cases hintrospection : isIntrospectionName name <;>
        simp [Option.filter, hname, hintrospection]

theorem kindOf?_ordinary (h : schema.TypesKeyed) (name : String) :
    schema.ordinary.kindOf? name =
      if isIntrospectionName name = true then none else schema.kindOf? name := by
  rw [kindOf?, get?_ordinary h, kindOf?]
  split
  · rfl
  · rw [Option.map_map]
    rfl

/-! ### The graph -/

theorem targetKind_ordinary (h : schema.TypesKeyed) (target : String) :
    schema.ordinary.targetKind target = schema.targetKind target := by
  rw [targetKind, targetKind, kindOf?_ordinary h]
  cases isIntrospectionName target <;> simp

theorem fieldTargets_ordinary (h : schema.TypesKeyed) (type : TypeDef) :
    schema.ordinary.fieldTargets type.ordinary = schema.fieldTargets type := by
  rw [fieldTargets_eq, fieldTargets_eq, type.typedFields_ordinary]
  apply List.map_congr_left
  intro field _
  rw [targetOf, targetOf, targetKind_ordinary h]

theorem typeGraph_ordinary (h : schema.TypesKeyed) :
    schema.ordinary.typeGraph = schema.typeGraph := by
  have hname (type : TypeDef) (hselectable : isSelectable type = true) :
      isIntrospectionName type.name = false := by
    simpa [isSelectable] using (Bool.and_eq_true_iff.mp hselectable).2
  rw [typeGraph, typeGraph, filter_types_ordinary schema (fun _ => rfl) hname, List.map_map]
  congr 2
  apply List.map_congr_left
  intro type _
  simp only [Function.comp_apply, TypeDef.name_ordinary, fieldTargets_ordinary h]

/-! ### The roots -/

theorem rootType?_ordinary (h : schema.TypesKeyed) (hroots : schema.RootsOrdinary)
    (operation : OperationKind) :
    schema.ordinary.rootType? operation = (schema.rootType? operation).map TypeDef.ordinary := by
  have hname : schema.ordinary.rootName? operation = schema.rootName? operation := by
    cases operation <;> rfl
  rw [rootType?_eq, rootType?_eq, hname]
  cases hfound : schema.rootName? operation with
  | none => rfl
  | some name =>
      rw [Option.bind_some, Option.bind_some, get?_ordinary h, hroots operation name hfound]
      cases schema.get? name with
      | none => rfl
      | some type => by_cases hkind : type.kind = .composite <;> simp [Option.filter, hkind]

theorem rootTypes_ordinary (h : schema.TypesKeyed) (hroots : schema.RootsOrdinary) :
    schema.ordinary.rootTypes = schema.rootTypes.map fun root => (root.1, root.2.ordinary) := by
  simp only [rootTypes_eq, rootType?_ordinary h hroots]
  cases schema.rootType? .query <;> cases schema.rootType? .mutation <;> rfl

theorem rootFields_ordinary (h : schema.TypesKeyed) (hroots : schema.RootsOrdinary) :
    schema.ordinary.rootFields = schema.rootFields := by
  have hstart (operation : OperationKind) :
      schema.ordinary.startFields operation = schema.startFields operation := by
    rw [startFields, startFields, rootType?_ordinary h hroots]
    cases schema.rootType? operation with
    | none => rfl
    | some type => exact type.startFields_ordinary
  rw [rootFields_eq, rootFields_eq, hstart, hstart]

/-! ### The compilation -/

/-- A compilation reads nothing of a schema but its type graph and its root fields. -/
theorem compile_congr {other : Schema} (hgraph : schema.typeGraph = other.typeGraph)
    (hfields : schema.rootFields = other.rootFields) (config : Config) :
    schema.compile config = other.compile config := by
  simp only [compile, emissionOrder, submodels, roots, hgraph, hfields]

/-- Deleting what has an introspection name changes neither the compilation of a schema nor
its static module, whatever the types are called there. -/
theorem compile_ordinary (schema : Schema) (config : Config) (naming : Naming)
    (h : schema.TypesKeyed) (hroots : schema.RootsOrdinary) :
    schema.ordinary.compile config = schema.compile config ∧
      ((schema.ordinary.compile config).staticModule naming config).text =
        ((schema.compile config).staticModule naming config).text := by
  have hcompile : schema.ordinary.compile config = schema.compile config :=
    compile_congr (typeGraph_ordinary h) (rootFields_ordinary h hroots) config
  exact ⟨hcompile, by rw [hcompile]⟩

theorem compile_ordinary_sample :
    sample.TypesKeyed ∧ sample.RootsOrdinary ∧ sample.ordinary ≠ sample ∧
      sample.ordinary.compile .standard = sample.compile .standard ∧
      ((sample.ordinary.compile .standard).staticModule default .standard).text =
        ((sample.compile .standard).staticModule default .standard).text := by
  have hkeyed : sample.TypesKeyed := by decide
  have hroots : sample.RootsOrdinary := by decide
  exact ⟨hkeyed, hroots, by decide, compile_ordinary sample .standard default hkeyed hroots⟩

end Schema

end SelectionCompiler
