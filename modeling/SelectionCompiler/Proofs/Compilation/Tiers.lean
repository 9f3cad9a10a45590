import SelectionCompiler.Proofs.Compilation.Paths

/-!
The two tiers of a compilation. Roots and submodels come from two separate passes over
the fields of the types at which operations start. Main statement: the passes agree. The
roots are the fields of the submodels of the query type and the mutation type, a query
field hiding a mutation field of its name, and each root goes on with the submodel that
is referred to at its field. A name of no root is an unknown operation.
-/

namespace SelectionCompiler

namespace Compilation

/-- The selection registered for the type at which operations of a kind start, empty if
no such type is registered. -/
def startSelection (c : Compilation) (schema : Schema) (operation : OperationKind) : Selection :=
  (((schema.rootName? operation).bind c.submodels.get?).map (·.selection)).getD []

/-- What a root selects is what the element for its field leads to: the submodel that a
reference names, and nothing for a bare field. -/
def Continues (c : Compilation) (root : Root) : Element → Prop
  | .field _ => root.selection = []
  | .reference _ type => root.returnType = type ∧
      ∃ m, c.submodels.get? type = some m ∧ root.selection = m.selection
  | .nested _ _ => False

/-- Roots and submodels say the same of the fields at which operations start. -/
structure TiersAgree (c : Compilation) (schema : Schema) : Prop where
  roots : c.roots.values.map (fun root => (root.operation, root.field)) =
    (c.startSelection schema .query).names.map (OperationKind.query, ·) ++
      ((c.startSelection schema .mutation).names.filter
        (· ∉ (c.startSelection schema .query).names)).map (OperationKind.mutation, ·)
  absent : ∀ operation, schema.rootType? operation = none →
    c.startSelection schema operation = []
  stored : ∀ root ∈ c.roots.values, c.root? root.field = some root
  continues : ∀ root ∈ c.roots.values, ∀ e ∈ c.startSelection schema root.operation,
    e.name = root.field → c.Continues root e
  unknown : ∀ name failure, c.resolvedRoot name = .error failure ↔
    name ∉ c.roots.values.map Root.field ∧ failure = .unknownOperation name

theorem resolvedRoot_eq_error_iff {c : Compilation} {name : String} {failure : Failure} :
    c.resolvedRoot name = .error failure ↔
      name ∉ c.roots.keys ∧ failure = .unknownOperation name := by
  rw [← OrdMap.get?_eq_none_iff]
  unfold resolvedRoot resolvedRoot? root?
  cases c.roots.get? name with
  | none => simp [eq_comm]
  | some root => simp

end Compilation

theorem TypeDef.map_name_startFields (type : TypeDef) :
    type.startFields.map FieldDef.name = type.fieldNames := by
  unfold startFields fieldNames typedFields
  induction type.fields.values with
  | nil => rfl
  | cons field rest ih =>
      cases hname : isIntrospectionName field.name <;> cases htype : field.type <;>
        simp [hname, htype, ih]

namespace Schema

variable {schema : Schema}

/-! ### The submodels of the types at which operations start -/

/-- The element for a typed field in a selection that refers to submodels. -/
def elementFor (schema : Schema) (name target : String) : Element :=
  if schema.typeGraph.contains target = true then .reference name target else .field name

theorem name_elementFor (schema : Schema) (name target : String) :
    (schema.elementFor name target).name = name := by
  unfold elementFor
  split <;> rfl

theorem referring_typeGraph (h : schema.TypesKeyed) {name : String} {type : TypeDef}
    (hsel : schema.Selects name type) :
    schema.typeGraph.referring name =
      type.typedFields.map fun field => schema.elementFor field.1 field.2.target := by
  rw [TypeGraph.referring, fields_typeGraph h hsel, fieldTargets_eq, List.map_map]
  refine List.map_congr_left fun field _ => ?_
  simp only [Function.comp_apply, isComposite_targetOf h, elementFor]
  rfl

theorem startSelection_of_some (h : schema.TypesKeyed) (hroots : schema.RootsOrdinary)
    (config : Config) {operation : OperationKind} {type : TypeDef}
    (htype : schema.rootType? operation = some type) :
    (schema.compile config).startSelection schema operation =
      type.typedFields.map fun field => schema.elementFor field.1 field.2.target := by
  obtain ⟨name, hname, hsel⟩ := hroots.rootType?_eq_some_iff.mp htype
  have hget : (schema.compile config).submodels.get? name =
      some (schema.typeGraph.submodel name config.submodelDepth) := by
    rw [get?_submodels_compile, if_pos ((contains_typeGraph_iff h).mpr ⟨type, hsel⟩)]
  rw [Compilation.startSelection, Option.mem_def.mp hname, Option.bind_some, hget]
  exact referring_typeGraph h hsel

theorem startSelection_of_none (h : schema.TypesKeyed) (config : Config)
    {operation : OperationKind} (htype : schema.rootType? operation = none) :
    (schema.compile config).startSelection schema operation = [] := by
  cases hname : schema.rootName? operation with
  | none => rw [Compilation.startSelection, hname]; rfl
  | some name =>
      have hget : (schema.compile config).submodels.get? name = none := by
        rw [get?_submodels_compile, if_neg]
        rw [contains_typeGraph_iff h]
        rintro ⟨type, hget, hkind, _⟩
        -- a type that is registered is composite, so operations would start at it
        have hsome := rootType?_eq_some_iff.mpr ⟨name, hname, hget, hkind⟩
        rw [htype] at hsome
        cases hsome
      rw [Compilation.startSelection, hname, Option.bind_some, hget]
      rfl

theorem names_startSelection (h : schema.TypesKeyed) (hroots : schema.RootsOrdinary)
    (config : Config) (operation : OperationKind) :
    ((schema.compile config).startSelection schema operation).names =
      (schema.startFields operation).map FieldDef.name := by
  cases htype : schema.rootType? operation with
  | none =>
      rw [startSelection_of_none h config htype, startFields, htype]
      rfl
  | some type =>
      rw [startSelection_of_some h hroots config htype, startFields, htype, Option.elim_some,
        type.map_name_startFields, Selection.names, TypeDef.fieldNames, List.map_map]
      exact List.map_congr_left fun field _ => schema.name_elementFor _ _

/-- Each element of the selection stands for a start field, by its name and its target. -/
theorem exists_of_mem_startSelection (h : schema.TypesKeyed) (hroots : schema.RootsOrdinary)
    {config : Config} {operation : OperationKind} {e : Element}
    (he : e ∈ (schema.compile config).startSelection schema operation) :
    ∃ field ∈ schema.startFields operation, ∃ reference, field.type = some reference ∧
      e = schema.elementFor field.name reference.target := by
  cases htype : schema.rootType? operation with
  | none =>
      rw [startSelection_of_none h config htype] at he
      cases he
  | some type =>
      rw [startSelection_of_some h hroots config htype, List.mem_map] at he
      obtain ⟨⟨name, reference⟩, hmem, rfl⟩ := he
      obtain ⟨field, hfield, rfl, hname, hreference⟩ := TypeDef.mem_typedFields.mp hmem
      refine ⟨field, mem_startFields.mpr ⟨type, htype, hfield, hname, ?_⟩, reference,
        hreference, rfl⟩
      rw [hreference, Option.isSome_some]

/-! ### The roots -/

/-- The roots for the start fields of one operation, under the names of the fields. -/
def rootEntries (schema : Schema) (depth : Nat) (operation : OperationKind) :
    List (String × Root) :=
  (schema.startFields operation).map fun field =>
    (field.name, schema.typeGraph.root operation field depth)

theorem keys_rootEntries (schema : Schema) (depth : Nat) (operation : OperationKind) :
    (schema.rootEntries depth operation).map Prod.fst =
      (schema.startFields operation).map FieldDef.name := by
  rw [rootEntries, List.map_map]
  rfl

theorem toList_roots (hf : schema.FieldsKeyed) (depth : Nat) :
    (schema.roots depth).toList = schema.rootEntries depth .query ++
      (schema.rootEntries depth .mutation).filter fun entry =>
        entry.1 ∉ (schema.startFields .query).map FieldDef.name := by
  have hnodup (operation : OperationKind) :
      ((schema.rootEntries depth operation).map Prod.fst).Nodup := by
    rw [keys_rootEntries]
    exact nodup_names_startFields hf operation
  -- nothing stands before the query roots, so all of them are kept
  have hquery : ((∅ : OrdMap Root).insertNew (schema.rootEntries depth .query)).toList =
      schema.rootEntries depth .query := by
    rw [OrdMap.toList_insertNew (hnodup .query)]
    simp [OrdMap.keys]
  rw [roots_eq_insertNew, rootFields_eq, List.map_append, List.map_map, List.map_map]
  change ((∅ : OrdMap Root).insertNew
    (schema.rootEntries depth .query ++ schema.rootEntries depth .mutation)).toList = _
  rw [OrdMap.insertNew_append, OrdMap.toList_insertNew (hnodup .mutation), OrdMap.keys, hquery,
    keys_rootEntries]

theorem map_values_roots (hf : schema.FieldsKeyed) (depth : Nat) :
    (schema.roots depth).values.map (fun root => (root.operation, root.field)) =
      ((schema.startFields .query).map FieldDef.name).map (OperationKind.query, ·) ++
        (((schema.startFields .mutation).map FieldDef.name).filter
          (· ∉ (schema.startFields .query).map FieldDef.name)).map (OperationKind.mutation, ·) := by
  rw [OrdMap.values, toList_roots hf, List.map_append, List.map_append, rootEntries, rootEntries,
    List.filter_map, List.filter_map]
  simp only [List.map_map]
  rfl

theorem continues_root (h : schema.TypesKeyed) (config : Config) (operation : OperationKind)
    (field name target : String) :
    (schema.compile config).Continues
      ⟨field, operation, target, config.rootDepth, schema.typeGraph.referring target⟩
      (schema.elementFor name target) := by
  unfold elementFor
  split
  · rename_i hgraph
    refine ⟨rfl, schema.typeGraph.submodel target config.submodelDepth, ?_, rfl⟩
    rw [get?_submodels_compile, if_pos hgraph]
  · rename_i hleaf
    -- a target outside the graph has no fields there, so its root selects nothing
    rw [contains_typeGraph_iff h] at hleaf
    exact referring_of_not_selects h hleaf

/-- Start fields of one operation are told apart by their names. -/
theorem startField_unique (hf : schema.FieldsKeyed) {operation : OperationKind}
    {field other : FieldDef} (hfield : field ∈ schema.startFields operation)
    (hother : other ∈ schema.startFields operation) (hname : field.name = other.name) :
    field = other :=
  List.inj_on_of_nodup_map (nodup_names_startFields hf operation) hfield hother hname

/-- Roots and submodels of a compilation agree, unless operations start at a type with an
introspection name. -/
theorem tiersAgree_compile (schema : Schema) (config : Config) (h : schema.TypesKeyed)
    (hf : schema.FieldsKeyed) (hroots : schema.RootsOrdinary) :
    (schema.compile config).TiersAgree schema where
  roots := by
    rw [names_startSelection h hroots, names_startSelection h hroots]
    exact map_values_roots hf config.rootDepth
  absent _ htype := startSelection_of_none h config htype
  stored _ hroot := root?_compile hroot
  continues root hroot e he hname := by
    obtain ⟨start, hstart, reference, htype, rfl⟩ := mem_roots_compile hroot
    obtain ⟨field, hfield, found, hfound, rfl⟩ := exists_of_mem_startSelection h hroots he
    rw [name_elementFor] at hname
    obtain rfl := startField_unique hf hfield (mem_rootFields.mp hstart) hname
    obtain rfl := Option.some.inj (htype.symm.trans hfound)
    exact continues_root h config start.1 _ _ _
  unknown name failure := by
    rw [Compilation.resolvedRoot_eq_error_iff,
      OrdMap.map_values_of_named (schema.roots_keyed config)]

/-- A schema in which a query field hides a mutation field, an untyped query field leaves
its name to a mutation field, and a user leads back to the query type. -/
def overlapping : Schema :=
  let field (name target : String) : FieldDef := ⟨name, some (.named target), []⟩
  let composite (name : String) (fields : List FieldDef) : TypeDef :=
    (TypeDef.bare name .composite).addFields fields
  ((builtin.addTypes [
    composite "Query" [field "me" "User", field "version" "String", ⟨"draft", none, []⟩,
      field "__kind" "User"],
    composite "Mutation" [field "me" "User", field "draft" "User", field "undo" "Mutation"],
    composite "User" [field "name" "String", field "query" "Query"]]).setQueryType
      (some "Query")).setMutationType (some "Mutation")

theorem tiersAgree_compile_overlapping :
    overlapping.TypesKeyed ∧ overlapping.FieldsKeyed ∧ overlapping.RootsOrdinary ∧
      (overlapping.compile .standard).TiersAgree overlapping ∧
      (overlapping.compile .standard).roots.values.map (fun root => (root.operation, root.field)) =
        [(.query, "me"), (.query, "version"), (.mutation, "draft"), (.mutation, "undo")] := by
  have hkeyed : overlapping.TypesKeyed := by decide
  have hfields : overlapping.FieldsKeyed := by decide
  have hroots : overlapping.RootsOrdinary := by decide
  exact ⟨hkeyed, hfields, hroots, tiersAgree_compile overlapping .standard hkeyed hfields hroots,
    by decide⟩

end Schema

end SelectionCompiler
