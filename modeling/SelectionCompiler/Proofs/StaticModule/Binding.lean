import SelectionCompiler.Proofs.StaticModule.Meaning

/-!
How the identifiers of a module are bound. Types may be rendered alike, fields may be called
like types, and names need not be identifiers at all. Main statement: all the same
no identifier is declared twice, every link leads to one declaration, which is the
table made for what the element stands for, and every table declares as many items
as it lists.
-/

namespace SelectionCompiler

open StaticModule

/-- A reference leads to the type of a submodel. -/
def Arena.Mentions (a : Arena) : Element → Prop
  | .reference _ type => type ∈ a.submodels.map Submodel.typeName
  | _ => True

instance (a : Arena) : DecidablePred a.Mentions
  | .field _ => isTrue trivial
  | .nested _ _ => isTrue trivial
  | .reference _ type => inferInstanceAs (Decidable (type ∈ a.submodels.map Submodel.typeName))

/-- Submodels are of different types, and all references lead to them. Under which keys
submodels and roots are stored does not matter. -/
structure Compilation.Resolvable (c : Compilation) : Prop where
  distinct : (c.submodels.submodels.map Submodel.typeName).Nodup
  submodels : ∀ m ∈ c.submodels.submodels, m.selection.Everywhere c.submodels.Mentions
  roots : ∀ r ∈ c.roots.values, r.selection.Everywhere c.submodels.Mentions

namespace StaticModule

mutual

/-- The item has the name of the element. The link of a reference is the identifier of its
type, which is that of a submodel; under the link of a nested element stands a table
whose items are bound as the children ask for. -/
def Binds (emitted : StaticModule) (names : TableNames) (a : Arena) : Element → StaticItem → Prop
  | .field name, .field shown => shown = name
  | .reference name type, .reference shown link => shown = name ∧ link = tableOf names type ∧
      type ∈ a.submodels.map Submodel.typeName
  | .nested name children, .nested shown link => shown = name ∧
      ∃ doc own, .table link doc own ∈ emitted.declarations ∧ BindsAll emitted names a children own
  | _, _ => False

/-- The items are those of a selection, one for each element, at every level. -/
def BindsAll (emitted : StaticModule) (names : TableNames) (a : Arena) :
    List Element → List StaticItem → Prop
  | [], [] => True
  | e :: rest, item :: items => Binds emitted names a e item ∧ BindsAll emitted names a rest items
  | _, _ => False

end

/-- The text of a table that is declared with `size` items and lists `items`. -/
def tableText (identifier doc : String) (size : Nat) (items : List String) : String :=
  "\n/// " ++ doc ++ "\n#[allow(non_upper_case_globals)]\npub static " ++ identifier
    ++ ": [StaticSelection; " ++ size.repr ++ "] = [\n"
    ++ String.join (items.map fun item => "    " ++ item ++ ",\n") ++ "];\n"

/-- No identifier is declared twice and every link leads to one declaration. Submodels have
tables under identifiers of their own, roots have tables and depths, and the items of
each are bound as the selection asks for. Every table is that of a selection, and it is
written with as many items as the selection has elements. -/
structure Bound (emitted : StaticModule) (c : Compilation) (names : TableNames) : Prop where
  distinct : emitted.identifiers.Nodup
  once : ∀ identifier doc items, .table identifier doc items ∈ emitted.declarations →
    ∀ item ∈ items, ∀ link, item.link? = some link → emitted.identifiers.count link = 1
  apart : (c.submodels.submodels.map fun m => tableOf names m.typeName).Nodup
  submodels : ∀ m ∈ c.submodels.submodels, ∃ doc items,
    .table (tableOf names m.typeName) doc items ∈ emitted.declarations ∧
      emitted.BindsAll names c.submodels m.selection items
  roots : ∀ r ∈ c.roots.values, ∃ identifier items depthIdentifier,
    .table identifier (rootDoc r) items ∈ emitted.declarations ∧
      .depth depthIdentifier r.depth ∈ emitted.declarations ∧
      emitted.BindsAll names c.submodels r.selection items
  sized : ∀ identifier doc items, .table identifier doc items ∈ emitted.declarations →
    ∃ s, emitted.BindsAll names c.submodels s items ∧
      (Declaration.table identifier doc items).text =
        tableText identifier doc s.length (items.map StaticItem.text)

variable {emitted : StaticModule} {names : TableNames} {a : Arena}

theorem bindsAll_of_emits {s : Selection} {items : List StaticItem} {ds : List Declaration}
    (h : Emits names s items ds) (hsub : ds ⊆ emitted.declarations)
    (hs : s.Everywhere a.Mentions) : emitted.BindsAll names a s items := by
  induction h with
  | nil => trivial
  | field name _ ih => exact ⟨rfl, ih hsub (Selection.everywhere_cons.mp hs).2.2⟩
  | reference name type _ ih =>
      obtain ⟨hmention, _, hrest⟩ := Selection.everywhere_cons.mp hs
      exact ⟨⟨rfl, rfl, hmention⟩, ih hsub hrest⟩
  | @nested _ _ own _ _ _ name identifier doc _ _ ihchildren ihrest =>
      obtain ⟨_, hchildren, hrest⟩ := Selection.everywhere_cons.mp hs
      obtain ⟨htable, hsub⟩ := List.cons_subset.mp hsub
      obtain ⟨hbelow, hafter⟩ := List.append_subset.mp hsub
      exact ⟨⟨rfl, doc, own, htable, ihchildren hbelow hchildren⟩, ihrest hafter hrest⟩

theorem text_table (identifier doc : String) (items : List StaticItem) :
    (Declaration.table identifier doc items).text =
      tableText identifier doc items.length (items.map StaticItem.text) := by
  rw [tableText, List.map_map]
  rfl

/-- What the family of tables holds has been declared. -/
theorem count_identifiers (hdistinct : emitted.identifiers.Nodup) {link : String}
    (h : emitted.family.tables.contains link = true) : emitted.identifiers.count link = 1 := by
  rw [OrdMap.contains_iff, OrdMap.keys, toList_family hdistinct] at h
  exact List.count_eq_one_of_mem hdistinct ((keys_filterMap_table? _).subset h)

end StaticModule

namespace Compilation

variable {c : Compilation}

/-- Every table of the module is made for a submodel, for a root, or for a selection nested
in one of them. -/
theorem Resolvable.emits_of_mem (h : c.Resolvable) (naming : Naming) (config : Config)
    {identifier doc : String} {own : List StaticItem}
    (hmem : .table identifier doc own ∈ (c.staticModule naming config).declarations) :
    ∃ s below, Emits (c.tableNames naming) s own below ∧
      below ⊆ (c.staticModule naming config).declarations ∧
      s.Everywhere c.submodels.Mentions := by
  obtain ⟨submodels, roots, hsubmodels, hroots, hdeclarations, hblocks, hrootBlocks⟩ :=
    c.staticModule_blocks naming config
  rw [hdeclarations] at hmem ⊢
  obtain ⟨block, hblock, hmem⟩ := List.mem_flatten.mp hmem
  have hpart : block ⊆ (submodels.map Prod.snd ++ roots.map Prod.snd).flatten :=
    fun _ hd => List.mem_flatten_of_mem hblock hd
  -- the tables of a block are those of a selection, which is all that both kinds share
  obtain ⟨s, below, hemits, hbelow, hs⟩ : ∃ s below, Emits (c.tableNames naming) s own below ∧
      below ⊆ block ∧ s.Everywhere c.submodels.Mentions := by
    rcases List.mem_append.mp hblock with hblock | hblock
    · obtain ⟨entry, hentry, rfl⟩ := List.mem_map.mp hblock
      obtain ⟨items, below, heq, hemits⟩ := hblocks entry hentry
      rw [heq] at hmem ⊢
      exact hemits.of_mem_cons (h.submodels _ (hsubmodels ▸ List.mem_map_of_mem hentry)) hmem
    · obtain ⟨entry, hentry, rfl⟩ := List.mem_map.mp hblock
      obtain ⟨name, items, below, depthIdentifier, heq, hemits⟩ := hrootBlocks entry hentry
      rw [heq, ← List.cons_append] at hmem ⊢
      rcases List.mem_append.mp hmem with hmem | hdepth
      · obtain ⟨s, found, hfound, hsub, hs⟩ :=
          hemits.of_mem_cons (h.roots _ (hroots ▸ List.mem_map_of_mem hentry)) hmem
        exact ⟨s, found, hfound, List.subset_append_of_subset_left _ hsub, hs⟩
      · cases List.mem_singleton.mp hdepth
  exact ⟨s, below, hemits, List.Subset.trans hbelow hpart, hs⟩

theorem Resolvable.links (h : c.Resolvable) (naming : Naming) (config : Config) :
    (c.staticModule naming config).Links (c.staticModule naming config).declarations := by
  have hdeclares {s : Selection} (hs : s.Everywhere c.submodels.Mentions) :
      s.Everywhere ((c.staticModule naming config).Declares (c.tableNames naming)) := by
    refine hs.mono fun e he => ?_
    cases e with
    | field name => trivial
    | nested name children => trivial
    | reference name type =>
        obtain ⟨m, hm, rfl⟩ := List.mem_map.mp he
        obtain ⟨own, below, hpart, _⟩ := c.exists_submodelBlock naming config hm
        exact ⟨_, own, hpart.subset List.mem_cons_self⟩
  exact c.links_staticModule naming config h.distinct (fun m hm => hdeclares (h.submodels m hm))
    fun r hr => hdeclares (h.roots r hr)

/-- Whatever types are called in the module, its identifiers neither clash nor dangle. -/
theorem staticModule_bound (c : Compilation) (naming : Naming) (config : Config)
    (h : c.Resolvable) : (c.staticModule naming config).Bound c (c.tableNames naming) := by
  have hdistinct := nodup_identifiers_staticModule h.distinct naming config
  refine ⟨hdistinct, ?_, (claims_claimTableNames naming h.distinct ∅ []).distinct, ?_, ?_, ?_⟩
  · intro identifier doc items hmem item hitem link hlink
    exact count_identifiers hdistinct
      (h.links naming config identifier doc items hmem item hitem link hlink)
  · intro m hm
    obtain ⟨own, below, hpart, hemits⟩ := c.exists_submodelBlock naming config hm
    obtain ⟨htable, hbelow⟩ := List.cons_subset.mp hpart.subset
    exact ⟨_, own, htable, bindsAll_of_emits hemits hbelow (h.submodels m hm)⟩
  · intro r hr
    obtain ⟨before, identifier, own, below, depthIdentifier, after, hdeclarations, hemits⟩ :=
      c.exists_rootBlock naming config hr
    have hbelow : below ⊆ (c.staticModule naming config).declarations := by
      intro d hd
      simp [hdeclarations, hd]
    refine ⟨identifier, own, depthIdentifier, ?_, ?_,
      bindsAll_of_emits hemits hbelow (h.roots r hr)⟩
    · simp [hdeclarations]
    · simp [hdeclarations]
  · intro identifier doc items hmem
    obtain ⟨s, below, hemits, hbelow, hs⟩ := h.emits_of_mem naming config hmem
    exact ⟨s, bindsAll_of_emits hemits hbelow hs, by rw [text_table, hemits.length_eq]⟩

/-- All types are rendered alike. -/
theorem staticModule_bound_tangled : tangled.Resolvable ∧
    (tangled.staticModule ⟨.pascal, ∅, some fun _ => "Same"⟩ .standard).Bound tangled
      (tangled.tableNames ⟨.pascal, ∅, some fun _ => "Same"⟩) := by
  have h : tangled.Resolvable := ⟨by decide, by decide, by decide⟩
  exact ⟨h, staticModule_bound tangled ⟨.pascal, ∅, some fun _ => "Same"⟩ .standard h⟩

end Compilation

end SelectionCompiler
