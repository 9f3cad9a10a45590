import SelectionCompiler.Proofs.Graph.EmissionOrder
import SelectionCompiler.Proofs.Schema.Roots
import SelectionCompiler.Proofs.Selection.Arena
import Mathlib.Data.List.Forall2

/-!
What a compilation holds. The arena registers the types of the emission order and
has under each the selection of all its fields; each root has the selection of
its return type. Main statement: a compilation is closed, since a field is a
reference exactly when its target is registered, and complete, since no
registered type keeps the empty selection it was registered with.
-/

namespace SelectionCompiler

namespace Schema

variable {schema : Schema}

/-! ### Submodels -/

theorem submodels_eq_fillEach (schema : Schema) (order : List String) (depth : Nat) :
    schema.submodels order depth =
      (Arena.withOrder order depth).fillEach (schema.typeGraph.submodel · depth) order := rfl

theorem keys_submodels_compile (schema : Schema) (config : Config) :
    (schema.compile config).submodels.entries.keys = schema.emissionOrder := by
  change (schema.submodels schema.emissionOrder config.submodelDepth).entries.keys = _
  rw [submodels_eq_fillEach, Arena.keys_fillEach,
    Arena.keys_withOrder schema.nodup_emissionOrder]

theorem get?_submodels_compile (schema : Schema) (config : Config) (type : String) :
    (schema.compile config).submodels.get? type =
      if schema.typeGraph.contains type = true then
        some (schema.typeGraph.submodel type config.submodelDepth)
      else none := by
  change (schema.submodels schema.emissionOrder config.submodelDepth).get? type = _
  rw [submodels_eq_fillEach, Arena.get?_fillEach _ (fun _ => rfl),
    Arena.keys_withOrder schema.nodup_emissionOrder]
  by_cases h : schema.typeGraph.contains type = true
  · have hmem := mem_emissionOrder.mpr h
    rw [if_pos ⟨hmem, hmem⟩, if_pos h]
  · have hmem := mt mem_emissionOrder.mp h
    rw [if_neg (fun hboth => hmem hboth.1), if_neg h, Arena.get?_eq_none_iff,
      Arena.keys_withOrder schema.nodup_emissionOrder]
    exact hmem

/-- A submodel is stored under its type, which the graph has. -/
theorem of_mem_submodels_compile {config : Config} {name : String} {m : Submodel}
    (h : (name, m) ∈ (schema.compile config).submodels.entries.toList) :
    schema.typeGraph.contains name = true ∧
      m = schema.typeGraph.submodel name config.submodelDepth := by
  have hget := schema.get?_submodels_compile config name
  rw [Arena.get?, OrdMap.get?_eq_some_iff.mpr h] at hget
  split at hget
  · rename_i hgraph
    exact ⟨hgraph, Option.some.inj hget⟩
  · cases hget

theorem nodup_typeNames_compile (schema : Schema) (config : Config) :
    ((schema.compile config).submodels.submodels.map Submodel.typeName).Nodup := by
  have hkeyed : ∀ entry ∈ (schema.compile config).submodels.entries.toList,
      entry.2.typeName = entry.1 := by
    intro entry hentry
    rw [(of_mem_submodels_compile hentry).2]
    rfl
  rw [Arena.submodels, OrdMap.map_values_of_named hkeyed]
  exact OrdMap.nodup_keys _

/-! ### Roots -/

/-- The roots are inserted one after the other, those under a name in use left out. -/
theorem roots_eq_insertNew (schema : Schema) (depth : Nat) :
    schema.roots depth = (∅ : OrdMap Root).insertNew (schema.rootFields.map fun start =>
      (start.2.name, schema.typeGraph.root start.1 start.2 depth)) := by
  rw [roots, OrdMap.insertNew, List.foldl_map]

theorem mem_toList_roots {depth : Nat} {entry : String × Root}
    (h : entry ∈ (schema.roots depth).toList) :
    ∃ start ∈ schema.rootFields,
      entry = (start.2.name, schema.typeGraph.root start.1 start.2 depth) := by
  rw [roots_eq_insertNew] at h
  rcases OrdMap.mem_toList_insertNew h with hnone | hstart
  · cases hnone
  · obtain ⟨start, hmem, rfl⟩ := List.mem_map.mp hstart
    exact ⟨start, hmem, rfl⟩

theorem roots_keyed (schema : Schema) (config : Config) :
    ∀ entry ∈ (schema.compile config).roots.toList, entry.2.field = entry.1 := by
  intro entry hentry
  obtain ⟨start, _, rfl⟩ := mem_toList_roots hentry
  rfl

/-- A root stands under the name of a typed field at which operations start, and has
all fields of the field's target as its selection. -/
theorem mem_roots_compile {config : Config} {root : Root}
    (h : root ∈ (schema.compile config).roots.values) :
    ∃ start ∈ schema.rootFields, ∃ reference, start.2.type = some reference ∧
      root = ⟨start.2.name, start.1, reference.target, config.rootDepth,
        schema.typeGraph.referring reference.target⟩ := by
  obtain ⟨key, hget⟩ := OrdMap.mem_values_iff.mp h
  obtain ⟨start, hstart, heq⟩ := mem_toList_roots (OrdMap.get?_eq_some_iff.mp hget)
  obtain ⟨reference, htype⟩ := type_of_mem_rootFields hstart
  refine ⟨start, hstart, reference, htype, ?_⟩
  rw [(Prod.mk.inj heq).2]
  simp [TypeGraph.root, htype]

end Schema

/-! ### Closure -/

/-- The element for a field in a selection that refers to the arena: a reference to the
submodel of the field's target if that type is registered, otherwise a bare field. -/
def Arena.Describes (a : Arena) (field : String × TypeRef) : Element → Prop
  | .field name => name = field.1 ∧ a.contains field.2.target = false
  | .reference name type => name = field.1 ∧ type = field.2.target ∧
      ∃ m, a.get? type = some m ∧ m.typeName = type
  | .nested _ _ => False

/-- What a compilation says of a schema holds in both directions: its arena and its
order list the same types, which are the composite types outside introspection,
and every selection describes the typed fields of its type one by one. -/
structure Compilation.ClosedOver (c : Compilation) (schema : Schema) : Prop where
  ordered : c.submodels.entries.keys = c.order
  complete : ∀ name, name ∈ c.order ↔ ∃ type, schema.Selects name type
  filled : ∀ name m, c.submodels.get? name = some m → m.typeName = name ∧
    ∃ type, schema.Selects name type ∧
      List.Forall₂ c.submodels.Describes type.typedFields m.selection
  rooted : ∀ root ∈ c.roots.values,
    (∀ type, schema.Selects root.returnType type →
      List.Forall₂ c.submodels.Describes type.typedFields root.selection) ∧
    ((¬∃ type, schema.Selects root.returnType type) → root.selection = [])

namespace Schema

variable {schema : Schema}

theorem describes_referring (h : schema.TypesKeyed) (config : Config) {name : String}
    {type : TypeDef} (hsel : schema.Selects name type) :
    List.Forall₂ (schema.compile config).submodels.Describes type.typedFields
      (schema.typeGraph.referring name) := by
  rw [TypeGraph.referring, fields_typeGraph h hsel, fieldTargets_eq, List.map_map,
    List.forall₂_map_right_iff, List.forall₂_same]
  intro field hfield
  have hregistered : (schema.compile config).submodels.contains field.2.target = true ↔
      (schema.targetOf field).isComposite = true := by
    rw [Arena.contains_iff, keys_submodels_compile, mem_emissionOrder, isComposite_targetOf h]
  simp only [Function.comp_apply]
  split
  · rename_i hcomposite
    have hgraph := (isComposite_targetOf h field).mp hcomposite
    have hget : (schema.compile config).submodels.get? field.2.target =
        some (schema.typeGraph.submodel field.2.target config.submodelDepth) := by
      rw [get?_submodels_compile, if_pos hgraph]
    exact ⟨rfl, rfl, _, hget, rfl⟩
  · rename_i hleaf
    exact ⟨rfl, Bool.eq_false_iff.mpr (mt hregistered.mp hleaf)⟩

theorem referring_of_not_selects (h : schema.TypesKeyed) {name : String}
    (hsel : ¬∃ type, schema.Selects name type) : schema.typeGraph.referring name = [] := by
  rw [TypeGraph.referring, fields_typeGraph_of_not_selects h hsel, List.map_nil]

/-- Whatever the settings, the compilation of a schema with types under their own names is
closed and complete: what a selection refers to is registered, and what is registered holds one
element for each typed field. -/
theorem compile_closedOver (schema : Schema) (config : Config) (h : schema.TypesKeyed) :
    (schema.compile config).ClosedOver schema where
  ordered := keys_submodels_compile schema config
  complete name := by
    change name ∈ schema.emissionOrder ↔ _
    rw [mem_emissionOrder, contains_typeGraph_iff h]
  filled name m hget := by
    rw [get?_submodels_compile] at hget
    split at hget
    · rename_i hgraph
      obtain ⟨type, hsel⟩ := (contains_typeGraph_iff h).mp hgraph
      cases hget
      exact ⟨rfl, type, hsel, describes_referring h config hsel⟩
    · cases hget
  rooted root hroot := by
    obtain ⟨start, _, reference, _, rfl⟩ := mem_roots_compile hroot
    exact ⟨fun type hsel => describes_referring h config hsel,
      fun hsel => referring_of_not_selects h hsel⟩

/-- A schema in which users and posts refer to each other, users to themselves, and
fields lead to introspection types, to types that are not there, or nowhere. -/
def sample : Schema :=
  let field (name target : String) : FieldDef := ⟨name, some (.nonNull (.named target)), []⟩
  let composite (name : String) (fields : List FieldDef) : TypeDef :=
    (TypeDef.bare name .composite).addFields fields
  (builtin.addTypes [
    composite "Query" [field "user" "User", field "tag" "Tag", field "meta" "__Meta"],
    composite "User" [field "name" "String", field "__kind" "Tag", field "posts" "Post",
      field "friend" "User", field "ghost" "Missing", ⟨"untyped", none, []⟩],
    composite "Post" [field "author" "User"],
    composite "Tag" [field "label" "String"],
    composite "__Meta" [field "user" "User"]]).setQueryType (some "Query")

theorem compile_closedOver_sample :
    sample.TypesKeyed ∧ (sample.compile .standard).ClosedOver sample ∧
      (sample.compile .standard).order = ["Tag", "Query", "User", "Post"] :=
  ⟨by decide, compile_closedOver sample .standard (by decide), by decide⟩

end Schema

end SelectionCompiler
