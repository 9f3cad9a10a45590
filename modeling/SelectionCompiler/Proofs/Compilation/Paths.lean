import SelectionCompiler.Proofs.Compilation.Inlining
import SelectionCompiler.Proofs.Selection.Basic

/-!
Resolved roots as sets of field paths. A field path is read off the schema alone:
each of its names is a typed field, outside introspection, of the composite type
that the name before it leads to. Main statement: the paths from the top of a
resolved root are the field paths from its return type that are no longer than
its depth.
-/

namespace SelectionCompiler

namespace TypeDef

/-- The names of the typed fields outside introspection, in order of declaration. -/
def fieldNames (type : TypeDef) : List String := type.typedFields.map Prod.fst

theorem fieldNames_sublist (type : TypeDef) :
    type.fieldNames.Sublist (type.fields.values.map FieldDef.name) := by
  unfold fieldNames typedFields
  induction type.fields.values with
  | nil => exact List.Sublist.slnil
  | cons field rest ih =>
      rw [List.filterMap_cons]
      split
      · exact ih.cons field.name
      · rename_i typed hsome
        split at hsome
        · cases hsome
        · obtain ⟨reference, _, rfl⟩ := Option.map_eq_some_iff.mp hsome
          exact ih.cons_cons field.name

end TypeDef

namespace Schema

/-- On the composite type called `type`, outside introspection, the typed field `name`
has the target `target`. -/
def Leads (schema : Schema) (type name target : String) : Prop :=
  ∃ declared, schema.Selects type declared ∧
    ∃ field, declared.fields.get? name = some field ∧ isIntrospectionName name = false ∧
      field.type.map TypeRef.target = some target

/-- A path of field names from `type`, each on the type that the one before it leads
to, and the target of the last one. -/
inductive FieldPath (schema : Schema) : String → List String → String → Prop
  | single {type name target : String} :
      schema.Leads type name target → FieldPath schema type [name] target
  | step {type name middle target : String} {path : List String} :
      schema.Leads type name middle → FieldPath schema middle path target →
      FieldPath schema type (name :: path) target

/-- What a node for a field with the given target looks like: nested, with the fields of
the target in order of declaration, when the target is a composite type outside
introspection and the node is not too deep, otherwise a bare field. -/
def Shows (schema : Schema) (shallow : Prop) (target : String) : Element → Prop
  | .field _ => ¬(shallow ∧ ∃ type, schema.Selects target type)
  | .nested _ children => shallow ∧ ∃ type, schema.Selects target type ∧
      Selection.names children = type.fieldNames ∧ (Selection.names children).Nodup
  | .reference _ _ => False

/-- The selection on `type` whose paths are the field paths up to the given depth. -/
structure PathTree (schema : Schema) (type : String) (depth : Nat) (tree : Selection) : Prop where
  paths : ∀ path, (∃ node, tree.Reaches path node) ↔
    path.length ≤ max depth 1 ∧ ∃ target, schema.FieldPath type path target
  siblings : ∀ declared, schema.Selects type declared →
    tree.names = declared.fieldNames ∧ tree.names.Nodup
  nodes : ∀ path node target, tree.Reaches path node → schema.FieldPath type path target →
    schema.Shows (path.length < depth) target node

variable {schema : Schema}

/-! ### Fields -/

theorem get?_fields_iff (hf : schema.FieldsKeyed) {type name : String} {declared : TypeDef}
    (hsel : schema.Selects type declared) {field : FieldDef} :
    declared.fields.get? name = some field ↔
      field ∈ declared.fields.values ∧ field.name = name := by
  have hkeyed := hf declared (OrdMap.mem_values_iff.mpr ⟨type, hsel.1⟩)
  constructor
  · intro hget
    exact ⟨OrdMap.mem_values_iff.mpr ⟨name, hget⟩,
      hkeyed (name, field) (OrdMap.get?_eq_some_iff.mp hget)⟩
  · rintro ⟨hmem, rfl⟩
    exact OrdMap.get?_of_mem_values hkeyed hmem

theorem nodup_fieldNames (hf : schema.FieldsKeyed) {type : String} {declared : TypeDef}
    (hsel : schema.Selects type declared) : declared.fieldNames.Nodup := by
  have hkeyed := hf declared (OrdMap.mem_values_iff.mpr ⟨type, hsel.1⟩)
  refine List.Nodup.sublist declared.fieldNames_sublist ?_
  rw [OrdMap.map_values_of_named hkeyed]
  exact declared.fields.nodup_keys

theorem leads_iff (hf : schema.FieldsKeyed) {type name target : String} {declared : TypeDef}
    (hsel : schema.Selects type declared) :
    schema.Leads type name target ↔
      ∃ reference, (name, reference) ∈ declared.typedFields ∧ reference.target = target := by
  simp only [TypeDef.mem_typedFields]
  constructor
  · rintro ⟨other, hother, field, hget, hname, htarget⟩
    obtain rfl := hother.unique hsel
    obtain ⟨reference, htype, rfl⟩ := Option.map_eq_some_iff.mp htarget
    obtain ⟨hmem, rfl⟩ := (get?_fields_iff hf hsel).mp hget
    exact ⟨reference, ⟨field, hmem, rfl, hname, htype⟩, rfl⟩
  · rintro ⟨reference, ⟨field, hmem, rfl, hname, htype⟩, rfl⟩
    exact ⟨declared, hsel, field, (get?_fields_iff hf hsel).mpr ⟨hmem, rfl⟩, hname,
      by rw [htype, Option.map_some]⟩

theorem Leads.target_unique {type name target other : String}
    (h : schema.Leads type name target) (h' : schema.Leads type name other) :
    target = other := by
  obtain ⟨declared, hsel, field, hget, _, htarget⟩ := h
  obtain ⟨declared', hsel', field', hget', _, htarget'⟩ := h'
  obtain rfl := hsel.unique hsel'
  obtain rfl := Option.some.inj (hget.symm.trans hget')
  exact Option.some.inj (htarget.symm.trans htarget')

theorem FieldPath.selects {type target : String} {path : List String}
    (h : schema.FieldPath type path target) : ∃ declared, schema.Selects type declared := by
  cases h with
  | single hleads => exact ⟨hleads.choose, hleads.choose_spec.1⟩
  | step hleads _ => exact ⟨hleads.choose, hleads.choose_spec.1⟩

theorem FieldPath.ne_nil {type target : String} {path : List String}
    (h : schema.FieldPath type path target) : path ≠ [] := by
  cases h <;> simp

theorem FieldPath.target_unique {type target other : String} {path : List String}
    (h : schema.FieldPath type path target) (h' : schema.FieldPath type path other) :
    target = other := by
  induction h with
  | single hleads =>
      cases h' with
      | single hleads' => exact hleads.target_unique hleads'
      | step _ hrest => exact absurd rfl hrest.ne_nil
  | step hleads hpath ih =>
      cases h' with
      | single _ => exact absurd rfl hpath.ne_nil
      | step hleads' hrest =>
          obtain rfl := hleads.target_unique hleads'
          exact ih hrest

/-! ### Nodes -/

/-- The node for a field with the given target where `depth` levels are left. -/
def node (schema : Schema) (depth : Nat) (name target : String) : Element :=
  if schema.typeGraph.contains target = true ∧ 1 < depth then
    .nested name (schema.typeGraph.inlined (depth - 1) target)
  else .field name

theorem name_node (schema : Schema) (depth : Nat) (name target : String) :
    (schema.node depth name target).name = name := by
  unfold node
  split <;> rfl

theorem inlined_typeGraph (h : schema.TypesKeyed) {type : String} {declared : TypeDef}
    (hsel : schema.Selects type declared) (depth : Nat) :
    schema.typeGraph.inlined depth type =
      declared.typedFields.map fun field => schema.node depth field.1 field.2.target := by
  rw [TypeGraph.inlined_eq, fields_typeGraph h hsel, fieldTargets_eq, List.map_map]
  refine List.map_congr_left fun field _ => ?_
  simp only [Function.comp_apply, isComposite_targetOf h, node]
  rfl

theorem inlined_of_not_selects (h : schema.TypesKeyed) {type : String}
    (hsel : ¬∃ declared, schema.Selects type declared) (depth : Nat) :
    schema.typeGraph.inlined depth type = [] := by
  rw [TypeGraph.inlined_eq, fields_typeGraph_of_not_selects h hsel, List.map_nil]

theorem mem_inlined_iff (h : schema.TypesKeyed) (hf : schema.FieldsKeyed) {type : String}
    {depth : Nat} {e : Element} :
    e ∈ schema.typeGraph.inlined depth type ↔
      ∃ name target, schema.Leads type name target ∧ e = schema.node depth name target := by
  by_cases hsel : ∃ declared, schema.Selects type declared
  · obtain ⟨declared, hsel⟩ := hsel
    rw [inlined_typeGraph h hsel, List.mem_map]
    constructor
    · rintro ⟨⟨name, reference⟩, hmem, rfl⟩
      exact ⟨name, _, (leads_iff hf hsel).mpr ⟨reference, hmem, rfl⟩, rfl⟩
    · rintro ⟨name, target, hleads, rfl⟩
      obtain ⟨reference, hmem, rfl⟩ := (leads_iff hf hsel).mp hleads
      exact ⟨(name, reference), hmem, rfl⟩
  · rw [inlined_of_not_selects h hsel]
    constructor
    · intro hmem
      cases hmem
    · rintro ⟨name, target, ⟨declared, hdeclared, _⟩, _⟩
      exact absurd ⟨declared, hdeclared⟩ hsel

theorem node_mem_inlined (h : schema.TypesKeyed) (hf : schema.FieldsKeyed)
    {type name target : String} (hleads : schema.Leads type name target) (depth : Nat) :
    schema.node depth name target ∈ schema.typeGraph.inlined depth type :=
  (mem_inlined_iff h hf).mpr ⟨name, target, hleads, rfl⟩

theorem names_inlined (h : schema.TypesKeyed) {type : String} {declared : TypeDef}
    (hsel : schema.Selects type declared) (depth : Nat) :
    Selection.names (schema.typeGraph.inlined depth type) = declared.fieldNames := by
  rw [inlined_typeGraph h hsel, Selection.names, TypeDef.fieldNames, List.map_map]
  exact List.map_congr_left fun field _ => schema.name_node depth _ _

theorem shows_node (h : schema.TypesKeyed) (hf : schema.FieldsKeyed) (depth : Nat)
    (name target : String) :
    schema.Shows (1 < depth) target (schema.node depth name target) := by
  unfold node
  split
  · rename_i hopen
    obtain ⟨declared, hsel⟩ := (contains_typeGraph_iff h).mp hopen.1
    have hnames := names_inlined h hsel (depth - 1)
    refine ⟨hopen.2, declared, hsel, hnames, ?_⟩
    rw [hnames]
    exact nodup_fieldNames hf hsel
  · rename_i hclosed
    rw [contains_typeGraph_iff h] at hclosed
    exact fun hboth => hclosed ⟨hboth.2, hboth.1⟩

/-! ### Paths -/

/-- What lies below a node is the selection written out from the node's target. -/
theorem reaches_children_node {depth : Nat} {name target : String} {path : List String}
    {found : Element}
    (hreach : Selection.Reaches (schema.node depth name target).children path found) :
    1 < depth ∧ (schema.typeGraph.inlined (depth - 1) target).Reaches path found := by
  unfold node at hreach
  split at hreach
  · rename_i hopen
    exact ⟨hopen.2, hreach⟩
  · exact absurd hreach Selection.not_reaches_nil

theorem fieldPath_of_reaches (h : schema.TypesKeyed) (hf : schema.FieldsKeyed) {type : String}
    {depth : Nat} {path : List String} {found : Element}
    (hreach : (schema.typeGraph.inlined depth type).Reaches path found) :
    path.length ≤ max depth 1 ∧ ∃ target, schema.FieldPath type path target ∧
      schema.Shows (path.length < depth) target found := by
  induction path generalizing type depth with
  | nil => cases hreach
  | cons first path ih =>
      cases hreach with
      | top hmem =>
          obtain ⟨name, target, hleads, rfl⟩ := (mem_inlined_iff h hf).mp hmem
          rw [name_node]
          exact ⟨Nat.le_max_right depth 1, target, .single hleads,
            shows_node h hf depth name target⟩
      | under hmem hrest =>
          obtain ⟨name, middle, hleads, rfl⟩ := (mem_inlined_iff h hf).mp hmem
          obtain ⟨hdepth, hbelow⟩ := reaches_children_node hrest
          obtain ⟨hlength, target, hpath, hshows⟩ := ih hbelow
          rw [name_node]
          have hlevel : path.length < depth - 1 ↔ (name :: path).length < depth := by
            rw [List.length_cons]
            omega
          refine ⟨?_, target, .step hleads hpath, ?_⟩
          · rw [List.length_cons]
            omega
          · rwa [propext hlevel] at hshows

theorem exists_reaches (h : schema.TypesKeyed) (hf : schema.FieldsKeyed)
    {type target : String} {depth : Nat} {path : List String}
    (hpath : schema.FieldPath type path target) (hlength : path.length ≤ max depth 1) :
    ∃ found, (schema.typeGraph.inlined depth type).Reaches path found := by
  induction hpath generalizing depth with
  | single hleads =>
      have hreach := Selection.Reaches.top (node_mem_inlined h hf hleads depth)
      rw [name_node] at hreach
      exact ⟨_, hreach⟩
  | @step type name middle target path hleads hrest ih =>
      have hpos := List.length_pos_iff.mpr hrest.ne_nil
      rw [List.length_cons] at hlength
      -- a second name on the path leaves no room for the depths zero and one
      have hdepth : 1 < depth := by omega
      have hbelow : path.length ≤ max (depth - 1) 1 := by omega
      obtain ⟨found, hfound⟩ := ih hbelow
      have hmem := node_mem_inlined h hf hleads depth
      have hgraph : schema.typeGraph.contains middle = true :=
        (contains_typeGraph_iff h).mpr hrest.selects
      have hchildren : (schema.node depth name middle).children =
          schema.typeGraph.inlined (depth - 1) middle := by
        rw [node, if_pos ⟨hgraph, hdepth⟩]
        rfl
      have hreach := Selection.Reaches.under hmem (hchildren ▸ hfound)
      rw [name_node] at hreach
      exact ⟨found, hreach⟩

theorem pathTree_inlined (h : schema.TypesKeyed) (hf : schema.FieldsKeyed) (type : String)
    (depth : Nat) : schema.PathTree type depth (schema.typeGraph.inlined depth type) where
  paths path := by
    constructor
    · rintro ⟨found, hreach⟩
      obtain ⟨hlength, target, hpath, _⟩ := fieldPath_of_reaches h hf hreach
      exact ⟨hlength, target, hpath⟩
    · rintro ⟨hlength, target, hpath⟩
      exact exists_reaches h hf hpath hlength
  siblings declared hsel := by
    have hnames := names_inlined h hsel depth
    exact ⟨hnames, hnames ▸ nodup_fieldNames hf hsel⟩
  nodes path found target hreach hpath := by
    obtain ⟨_, other, hother, hshows⟩ := fieldPath_of_reaches h hf hreach
    rwa [hpath.target_unique hother]

/-! ### Resolved roots -/

theorem root?_compile {config : Config} {root : Root}
    (hroot : root ∈ (schema.compile config).roots.values) :
    (schema.compile config).root? root.field = some root :=
  OrdMap.get?_of_mem_values (schema.roots_keyed config) hroot

/-- Every root is that of a typed field at which operations start, and it resolves to
the field paths from that field's target up to the configured depth. -/
theorem resolvedRoot_pathTree (schema : Schema) (config : Config) (h : schema.TypesKeyed)
    (hf : schema.FieldsKeyed) (root : Root)
    (hroot : root ∈ (schema.compile config).roots.values) :
    (∃ start ∈ schema.rootFields, start.2.name = root.field ∧
      start.2.type.map TypeRef.target = some root.returnType) ∧
    ∃ tree, (schema.compile config).resolvedRoot? root.field = some tree ∧
      ((∃ type, schema.Selects root.returnType type) →
        schema.PathTree root.returnType config.rootDepth tree) ∧
      ((¬∃ type, schema.Selects root.returnType type) → tree = []) := by
  have hget := root?_compile hroot
  obtain ⟨start, hstart, reference, htype, rfl⟩ := mem_roots_compile hroot
  refine ⟨⟨start, hstart, rfl, by rw [htype, Option.map_some]⟩,
    schema.typeGraph.inlined config.rootDepth reference.target, ?_, ?_, ?_⟩
  · rw [Compilation.resolvedRoot?, hget, Option.map_some]
    exact congrArg some (resolve_compile_referring h config reference.target config.rootDepth)
  · intro _
    exact pathTree_inlined h hf reference.target config.rootDepth
  · intro hsel
    exact inlined_of_not_selects h hsel config.rootDepth

theorem resolvedRoot_pathTree_sample :
    sample.TypesKeyed ∧ sample.FieldsKeyed ∧
      ∃ root ∈ (sample.compile .standard).roots.values, root.field = "user" ∧
        ∃ tree, (sample.compile .standard).resolvedRoot? root.field = some tree ∧
          sample.PathTree root.returnType 2 tree := by
  have hkeyed : sample.TypesKeyed := by decide
  have hfields : sample.FieldsKeyed := by decide
  let root : Root := sample.typeGraph.root .query ⟨"user", some (.named "User"), []⟩ 2
  have hroot : root ∈ (sample.compile .standard).roots.values := by decide
  obtain ⟨_, tree, htree, hpaths, _⟩ :=
    resolvedRoot_pathTree sample .standard hkeyed hfields root hroot
  have hsel : ∃ type, sample.Selects root.returnType type := by
    rw [← contains_typeGraph_iff hkeyed]
    decide
  exact ⟨hkeyed, hfields, root, hroot, rfl, tree, htree, hpaths hsel⟩

end Schema

end SelectionCompiler
