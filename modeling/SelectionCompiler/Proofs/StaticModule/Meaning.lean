import SelectionCompiler.Proofs.StaticModule.Resolution
import SelectionCompiler.Proofs.StaticModule.RoundTrip
import SelectionCompiler.Proofs.StaticModule.Spelling

/-!
What the module of a compilation means. Main statement: its text can be read back, and in
the tables read every submodel resolves at every depth, and every root at the
depth declared with it, as in the compilation.
-/

namespace SelectionCompiler

open StaticModule

/-- Submodels and roots are stored under their own names, and every reference leads to a
registered type. -/
structure Compilation.Linked (c : Compilation) : Prop where
  submodelsKeyed : ∀ entry ∈ c.submodels.entries.toList, entry.2.typeName = entry.1
  rootsKeyed : ∀ entry ∈ c.roots.toList, entry.2.field = entry.1
  submodels : ∀ m ∈ c.submodels.submodels, m.selection.Everywhere c.submodels.Registers
  roots : ∀ r ∈ c.roots.values, r.selection.Everywhere c.submodels.Registers

/-- The module says what the compilation does. No identifier is declared twice and no
link leads out of the module. The table under the identifier of a submodel
resolves like the submodel at every depth; that of a root resolves like the root
at the value of the constant that is declared next. -/
structure StaticModule.Means (emitted : StaticModule) (c : Compilation) (naming : Naming)
    (config : Config) : Prop where
  distinct : emitted.identifiers.Nodup
  closed : emitted.family.isClosed = true
  submodels : ∀ m ∈ c.submodels.submodels, ∃ items,
    .table (tableOf (c.tableNames naming) m.typeName)
      (submodelDoc naming config.typesPath m.typeName) items ∈ emitted.declarations ∧
    ∀ depth, emitted.family.resolve depth items = c.resolve m.selection depth
  roots : ∀ r ∈ c.roots.values, ∃ before identifier items below depthIdentifier depth after,
    emitted.declarations = before ++ .table identifier (rootDoc r) items ::
      (below ++ .depth depthIdentifier depth :: after) ∧
    (∀ d ∈ below, d.table?.isSome = true) ∧
    c.resolvedRoot? r.field = some (emitted.family.resolve depth items)

namespace Compilation

variable {c : Compilation}

theorem staticModule_blocks (c : Compilation) (naming : Naming) (config : Config) :
    ∃ (submodels : List (Submodel × List Declaration)) (roots : List (Root × List Declaration)),
      submodels.map Prod.fst = c.submodels.submodels ∧ roots.map Prod.fst = c.roots.values ∧
      (c.staticModule naming config).declarations =
        (submodels.map Prod.snd ++ roots.map Prod.snd).flatten ∧
      (∀ entry ∈ submodels,
        SubmodelBlock naming config.typesPath (c.tableNames naming) entry.1 entry.2) ∧
      ∀ entry ∈ roots, RootBlock (c.tableNames naming) entry.1 entry.2 := by
  obtain ⟨submodels, hsubmodels, hfirst, hblocks⟩ := submodelTables_blocks naming config.typesPath
    (c.tableNames naming) c.submodels.submodels
    (claimTableNames naming ∅ [] c.submodels.submodels).2
  obtain ⟨roots, hroots, hothers, hrootBlocks⟩ := rootTables_blocks (c.tableNames naming)
    c.roots.values (submodelTables naming config.typesPath (c.tableNames naming)
      (claimTableNames naming ∅ [] c.submodels.submodels).2 c.submodels.submodels).2
  refine ⟨submodels, roots, hsubmodels, hroots, ?_, hblocks, hrootBlocks⟩
  rw [List.flatten_append, ← hfirst, ← hothers]
  rfl

theorem exists_submodelBlock (c : Compilation) (naming : Naming) (config : Config) {m : Submodel}
    (h : m ∈ c.submodels.submodels) :
    ∃ own below, (.table (tableOf (c.tableNames naming) m.typeName)
      (submodelDoc naming config.typesPath m.typeName) own :: below) <:+:
        (c.staticModule naming config).declarations ∧
      Emits (c.tableNames naming) m.selection own below := by
  obtain ⟨submodels, roots, hsubmodels, _, hdeclarations, hblocks, _⟩ :=
    c.staticModule_blocks naming config
  rw [← hsubmodels] at h
  obtain ⟨entry, hmem, rfl⟩ := List.mem_map.mp h
  obtain ⟨own, below, hblock, hemits⟩ := hblocks entry hmem
  have hsnd : entry.2 ∈ submodels.map Prod.snd := List.mem_map_of_mem hmem
  obtain ⟨before, after, heq⟩ :=
    exists_flatten_eq_append (List.mem_append_left (roots.map Prod.snd) hsnd)
  refine ⟨own, below, ⟨before, after, ?_⟩, hemits⟩
  rw [hdeclarations, heq, hblock]

theorem exists_rootBlock (c : Compilation) (naming : Naming) (config : Config) {r : Root}
    (h : r ∈ c.roots.values) :
    ∃ before identifier own below depthIdentifier after,
      (c.staticModule naming config).declarations = before ++ .table identifier (rootDoc r) own ::
        (below ++ .depth depthIdentifier r.depth :: after) ∧
      Emits (c.tableNames naming) r.selection own below := by
  obtain ⟨submodels, roots, _, hroots, hdeclarations, _, hblocks⟩ :=
    c.staticModule_blocks naming config
  rw [← hroots] at h
  obtain ⟨entry, hmem, rfl⟩ := List.mem_map.mp h
  obtain ⟨identifier, own, below, depthIdentifier, hblock, hemits⟩ := hblocks entry hmem
  have hsnd : entry.2 ∈ roots.map Prod.snd := List.mem_map_of_mem hmem
  obtain ⟨before, after, heq⟩ :=
    exists_flatten_eq_append (List.mem_append_right (submodels.map Prod.snd) hsnd)
  refine ⟨before, identifier, own, below, depthIdentifier, after, ?_, hemits⟩
  rw [hdeclarations, heq, hblock]
  simp

theorem links_staticModule (c : Compilation) (naming : Naming) (config : Config)
    (hdistinct : (c.submodels.submodels.map Submodel.typeName).Nodup)
    (hsubmodels : ∀ m ∈ c.submodels.submodels,
      m.selection.Everywhere ((c.staticModule naming config).Declares (c.tableNames naming)))
    (hroots : ∀ r ∈ c.roots.values,
      r.selection.Everywhere ((c.staticModule naming config).Declares (c.tableNames naming))) :
    (c.staticModule naming config).Links (c.staticModule naming config).declarations := by
  have hidentifiers := nodup_identifiers_staticModule hdistinct naming config
  obtain ⟨submodels, roots, hfst, hfstRoots, hdeclarations, hblocks, hrootBlocks⟩ :=
    c.staticModule_blocks naming config
  rw [hdeclarations]
  apply links_flatten
  intro block hblock
  have hsub : block.Sublist (c.staticModule naming config).declarations := by
    rw [hdeclarations]
    exact List.sublist_flatten_of_mem hblock
  rcases List.mem_append.mp hblock with hsubmodel | hroot
  · obtain ⟨entry, hmem, rfl⟩ := List.mem_map.mp hsubmodel
    obtain ⟨own, below, heq, hemits⟩ := hblocks entry hmem
    rw [heq] at hsub ⊢
    exact links_table hidentifiers hemits ((List.sublist_cons_self _ _).trans hsub)
      (hsubmodels entry.1 (hfst ▸ List.mem_map_of_mem hmem)) _ _
  · obtain ⟨entry, hmem, rfl⟩ := List.mem_map.mp hroot
    obtain ⟨identifier, own, below, depthIdentifier, heq, hemits⟩ := hrootBlocks entry hmem
    rw [heq] at hsub ⊢
    have hbelow := (List.sublist_append_left _ _).trans ((List.sublist_cons_self _ _).trans hsub)
    have htables := links_table hidentifiers hemits hbelow
      (hroots entry.1 (hfstRoots ▸ List.mem_map_of_mem hmem)) identifier (rootDoc entry.1)
    exact links_append htables (links_depth _ _)

namespace Linked

theorem distinct (h : c.Linked) : (c.submodels.submodels.map Submodel.typeName).Nodup := by
  rw [Arena.submodels, OrdMap.map_values_of_named h.submodelsKeyed]
  exact c.submodels.entries.nodup_keys

theorem mem_of_get? (h : c.Linked) {type : String} {target : Submodel}
    (hget : c.submodels.get? type = some target) :
    target ∈ c.submodels.submodels ∧ target.typeName = type :=
  ⟨OrdMap.mem_values_iff.mpr ⟨type, hget⟩, h.submodelsKeyed _ (OrdMap.get?_eq_some_iff.mp hget)⟩

theorem holds (h : c.Linked) (naming : Naming) (config : Config) :
    (c.staticModule naming config).Holds (c.tableNames naming) c.submodels := by
  intro type target hget
  obtain ⟨hmem, rfl⟩ := h.mem_of_get? hget
  obtain ⟨own, below, hinfix, hemits⟩ := c.exists_submodelBlock naming config hmem
  exact ⟨_, own, below, hinfix.subset List.mem_cons_self, hemits,
    (List.sublist_cons_self _ _).trans hinfix.sublist⟩

theorem links (h : c.Linked) (naming : Naming) (config : Config) :
    (c.staticModule naming config).Links (c.staticModule naming config).declarations := by
  have hdeclares {s : Selection} (hs : s.Everywhere c.submodels.Registers) :
      s.Everywhere ((c.staticModule naming config).Declares (c.tableNames naming)) :=
    hs.mono fun _ => (h.holds naming config).declares
  exact c.links_staticModule naming config h.distinct (fun m hm => hdeclares (h.submodels m hm))
    fun r hr => hdeclares (h.roots r hr)

/-- The module of a linked compilation means the compilation. -/
theorem means (h : c.Linked) (naming : Naming) (config : Config) :
    (c.staticModule naming config).Means c naming config := by
  have hdistinct := nodup_identifiers_staticModule h.distinct naming config
  have hregisters : ∀ type target, c.submodels.get? type = some target →
      target.selection.Everywhere c.submodels.Registers :=
    fun type target hget => h.submodels target (h.mem_of_get? hget).1
  refine ⟨hdistinct, isClosed_family hdistinct (h.links naming config), ?_, ?_⟩
  · intro m hm
    obtain ⟨own, below, hinfix, hemits⟩ := c.exists_submodelBlock naming config hm
    have hbelow := (List.sublist_cons_self _ _).trans hinfix.sublist
    refine ⟨own, hinfix.subset List.mem_cons_self, fun depth => ?_⟩
    exact resolve_family hdistinct (h.holds naming config) hregisters depth hemits hbelow
      (h.submodels m hm)
  · intro r hr
    obtain ⟨before, identifier, own, below, depthIdentifier, after, hdeclarations, hemits⟩ :=
      c.exists_rootBlock naming config hr
    refine ⟨before, identifier, own, below, depthIdentifier, r.depth, after, hdeclarations,
      hemits.isTable, ?_⟩
    have hbelow : below.Sublist (c.staticModule naming config).declarations := by
      rw [hdeclarations]
      exact ((List.sublist_append_left _ _).trans (List.sublist_cons_self _ _)).trans
        (List.sublist_append_right _ _)
    have hget : c.root? r.field = some r := OrdMap.get?_of_mem_values h.rootsKeyed hr
    rw [resolvedRoot?, hget, Option.map_some, resolve]
    exact congrArg some (resolve_family hdistinct (h.holds naming config) hregisters r.depth hemits
      hbelow (h.roots r hr)).symm

end Linked

/-- Read back, the text of the module of a compilation means the compilation: all types and
fields are called by names, types are rendered in characters of identifiers, and
the paths of the settings stand on one line. -/
theorem ofText?_staticModule_means (c : Compilation) (naming : Naming) (config : Config)
    (hlinked : c.Linked) (hnamed : c.Named)
    (hnaming : ∀ m ∈ c.submodels.submodels, naming.Spells m.typeName)
    (hconfig : config.PathsOnOneLine) :
    ∃ emitted, StaticModule.ofText? (c.staticModule naming config).text = some emitted ∧
      emitted.Means c naming config :=
  ⟨_, (hnamed.readable hnaming hconfig).ofText?_text, hlinked.means naming config⟩

/-- Two types with the same rendered name that refer to each other, one of them from
nested selections, and two roots whose depths want the same identifier. -/
def tangled : Compilation where
  order := ["user_profile", "UserProfile"]
  submodels := ⟨.ofList [
    ("user_profile", ⟨"user_profile", 1, [.field "type",
      .nested "friends" [.reference "best" "UserProfile", .nested "others" [.field "id"]]]⟩),
    ("UserProfile", ⟨"UserProfile", 1, [.reference "old" "user_profile"]⟩)]⟩
  roots := .ofList [
    ("loadItem", ⟨"loadItem", .query, "user_profile", 3, [.reference "profile" "user_profile"]⟩),
    ("load_item", ⟨"load_item", .query, "UserProfile", 1, [.nested "old" []]⟩)]

theorem ofText?_staticModule_means_tangled :
    tangled.Linked ∧ tangled.Named ∧
      (∀ m ∈ tangled.submodels.submodels, Naming.Spells default m.typeName) ∧
      Config.PathsOnOneLine .standard ∧
      ∃ emitted, StaticModule.ofText? (tangled.staticModule default .standard).text = some emitted ∧
        emitted.Means tangled default .standard := by
  have hlinked : tangled.Linked := ⟨by decide, by decide, by decide, by decide⟩
  have hnamed : tangled.Named := ⟨by decide, by decide⟩
  have hnaming : ∀ m ∈ tangled.submodels.submodels, Naming.Spells default m.typeName := by
    decide +kernel
  have hconfig : Config.PathsOnOneLine .standard := ⟨by decide, fun _ h => by cases h⟩
  exact ⟨hlinked, hnamed, hnaming, hconfig,
    ofText?_staticModule_means tangled default .standard hlinked hnamed hnaming hconfig⟩

end Compilation

end SelectionCompiler
