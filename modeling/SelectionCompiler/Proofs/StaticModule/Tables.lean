import SelectionCompiler.Proofs.StaticModule.Claims

/-!
The tables of a selection. The items follow the selection element by element, and for
each nested selection a table is declared whose items follow that one in turn. With
distinct identifiers, what is found under an identifier is the table declared
under it.
-/

namespace SelectionCompiler

open StaticModule Element

/-- The items of a selection and the tables declared below them, given the identifiers
of types. -/
inductive Emits (names : TableNames) : Selection → List StaticItem → List Declaration → Prop
  | nil : Emits names [] [] []
  | field {s : Selection} {items : List StaticItem} {ds : List Declaration} (name : String) :
      Emits names s items ds → Emits names (.field name :: s) (.field name :: items) ds
  | reference {s : Selection} {items : List StaticItem} {ds : List Declaration}
      (name type : String) : Emits names s items ds →
        Emits names (.reference name type :: s) (.reference name (tableOf names type) :: items) ds
  | nested {children s : Selection} {own items : List StaticItem} {below after : List Declaration}
      (name identifier doc : String) : Emits names children own below → Emits names s items after →
        Emits names (.nested name children :: s) (.nested name identifier :: items)
          (.table identifier doc own :: (below ++ after))

namespace Emits

variable {names : TableNames} {s : Selection} {items : List StaticItem} {ds : List Declaration}

theorem heightAll_le_length (h : Emits names s items ds) : heightAll s ≤ ds.length := by
  induction h with
  | nil => exact Nat.le_refl 0
  | field _ _ ih => exact Nat.max_le.mpr ⟨Nat.zero_le _, ih⟩
  | reference _ _ _ ih => exact Nat.max_le.mpr ⟨Nat.zero_le _, ih⟩
  | nested _ _ _ _ _ ihchildren ihrest =>
      rw [heightAll, height, List.length_cons, List.length_append]
      omega

theorem isTable (h : Emits names s items ds) : ∀ d ∈ ds, d.table?.isSome = true := by
  induction h with
  | nil => simp
  | field _ _ ih => exact ih
  | reference _ _ _ ih => exact ih
  | nested _ _ _ _ _ ihchildren ihrest =>
      simp only [List.mem_cons, List.mem_append]
      rintro d (rfl | hbelow | hafter)
      · rfl
      · exact ihchildren d hbelow
      · exact ihrest d hafter

theorem length_eq (h : Emits names s items ds) : items.length = s.length := by
  induction h with
  | nil => rfl
  | field _ _ ih => exact congrArg Nat.succ ih
  | reference _ _ _ ih => exact congrArg Nat.succ ih
  | nested _ _ _ _ _ _ ih => exact congrArg Nat.succ ih

/-- Each table below a selection is that of a selection nested in it. -/
theorem of_mem (h : Emits names s items ds) {p : Element → Prop} (hs : s.Everywhere p)
    {identifier doc : String} {own : List StaticItem} (hmem : .table identifier doc own ∈ ds) :
    ∃ found below, Emits names found own below ∧ below ⊆ ds ∧ found.Everywhere p := by
  induction h with
  | nil => cases hmem
  | field _ _ ih => exact ih (Selection.everywhere_cons.mp hs).2.2 hmem
  | reference _ _ _ ih => exact ih (Selection.everywhere_cons.mp hs).2.2 hmem
  | @nested _ _ own _ below after _ identifier doc hown _ ihchildren ihrest =>
      obtain ⟨_, hchildren, hrest⟩ := Selection.everywhere_cons.mp hs
      have hbelow : below ⊆ .table identifier doc own :: (below ++ after) :=
        List.subset_cons_of_subset _ (List.subset_append_left below after)
      have hafter : after ⊆ .table identifier doc own :: (below ++ after) :=
        List.subset_cons_of_subset _ (List.subset_append_right below after)
      rcases List.mem_cons.mp hmem with heq | hmem
      · cases heq
        exact ⟨_, _, hown, hbelow, hchildren⟩
      · rcases List.mem_append.mp hmem with hmem | hmem
        · obtain ⟨found, rest, hemits, hsub, hfound⟩ := ihchildren hchildren hmem
          exact ⟨found, rest, hemits, List.Subset.trans hsub hbelow, hfound⟩
        · obtain ⟨found, rest, hemits, hsub, hfound⟩ := ihrest hrest hmem
          exact ⟨found, rest, hemits, List.Subset.trans hsub hafter, hfound⟩

/-- The table of a selection and those below it are that of the selection and those of the
selections nested in it. -/
theorem of_mem_cons (h : Emits names s items ds) {p : Element → Prop} (hs : s.Everywhere p)
    {first identifier doc firstDoc : String} {own : List StaticItem}
    (hmem : .table identifier doc own ∈ Declaration.table first firstDoc items :: ds) :
    ∃ found below, Emits names found own below ∧
      below ⊆ Declaration.table first firstDoc items :: ds ∧ found.Everywhere p := by
  rcases List.mem_cons.mp hmem with heq | hmem
  · cases heq
    exact ⟨s, ds, h, List.subset_cons_self _ ds, hs⟩
  · obtain ⟨found, below, hemits, hsub, hfound⟩ := h.of_mem hs hmem
    exact ⟨found, below, hemits, List.subset_cons_of_subset _ hsub, hfound⟩

end Emits

namespace StaticModule

theorem emits_listTables (names : TableNames) (s : Selection) (base : String)
    (before used : List String) :
    Emits names s (items names base before s).1
      (listTables names base used s (items names base before s).1).1 := by
  induction s using Selection.induction generalizing base before used with
  | nil => exact .nil
  | field name rest ih => exact .field name (ih base before used)
  | reference name type rest ih => exact .reference name type (ih base before used)
  | nested name children rest ihchildren ihrest =>
      rw [items_nested, listTables_nested]
      exact .nested name _ _ (ihchildren _ _ _) (ihrest _ _ _)

/-- The table of a selection comes first and links, directly or not, to all the tables
after it. -/
theorem emits_tables (names : TableNames) (used : List String) (identifier base doc : String)
    (s : Selection) :
    ∃ own below, (tables names used identifier base doc s).1 =
      .table identifier doc own :: below ∧ Emits names s own below :=
  ⟨_, _, rfl, emits_listTables names s base used _⟩

/-! ### Submodels and roots -/

theorem exists_flatten_eq_append {block : List Declaration} {blocks : List (List Declaration)}
    (h : block ∈ blocks) : ∃ before after, blocks.flatten = before ++ block ++ after := by
  obtain ⟨before, after, rfl⟩ := List.append_of_mem h
  exact ⟨before.flatten, after.flatten, by simp⟩

/-- What is declared for a submodel: its table and the tables below that. -/
def SubmodelBlock (naming : Naming) (typesPath : Option String) (names : TableNames)
    (m : Submodel) (block : List Declaration) : Prop :=
  ∃ own below, block = .table (tableOf names m.typeName)
    (submodelDoc naming typesPath m.typeName) own :: below ∧ Emits names m.selection own below

/-- What is declared for a root: its table, the tables below that, and the constant with
its depth. -/
def RootBlock (names : TableNames) (r : Root) (block : List Declaration) : Prop :=
  ∃ identifier own below depthIdentifier, block = .table identifier (rootDoc r) own ::
    (below ++ [.depth depthIdentifier r.depth]) ∧ Emits names r.selection own below

theorem submodelTables_blocks (naming : Naming) (typesPath : Option String) (names : TableNames)
    (ms : List Submodel) (used : List String) :
    ∃ blocks : List (Submodel × List Declaration),
      blocks.map Prod.fst = ms ∧
        (submodelTables naming typesPath names used ms).1 = (blocks.map Prod.snd).flatten ∧
        ∀ entry ∈ blocks, SubmodelBlock naming typesPath names entry.1 entry.2 := by
  induction ms generalizing used with
  | nil => exact ⟨[], rfl, rfl, fun _ h => absurd h List.not_mem_nil⟩
  | cons m rest ih =>
      rw [submodelTables]
      generalize htables : tables names used (tableOf names m.typeName) m.typeName
        (submodelDoc naming typesPath m.typeName) m.selection = emitted
      have hblock : SubmodelBlock naming typesPath names m emitted.1 := by
        rw [← htables]
        exact emits_tables names used _ _ _ m.selection
      obtain ⟨blocks, hnames, hothers, hblocks⟩ := ih emitted.2
      refine ⟨(m, emitted.1) :: blocks, ?_, ?_, List.forall_mem_cons.mpr ⟨hblock, hblocks⟩⟩
      · rw [List.map_cons, hnames]
      · rw [List.map_cons, List.flatten_cons, ← hothers]

theorem rootTables_blocks (names : TableNames) (rs : List Root) (used : List String) :
    ∃ blocks : List (Root × List Declaration),
      blocks.map Prod.fst = rs ∧
        (rootTables names used rs).1 = (blocks.map Prod.snd).flatten ∧
        ∀ entry ∈ blocks, RootBlock names entry.1 entry.2 := by
  induction rs generalizing used with
  | nil => exact ⟨[], rfl, rfl, fun _ h => absurd h List.not_mem_nil⟩
  | cons r rest ih =>
      rw [rootTables]
      generalize htables : tables names (Identifier.claim used r.field :: used)
        (Identifier.claim used r.field) r.field (rootDoc r) r.selection = emitted
      dsimp only
      generalize Identifier.claim emitted.2 (depthName r.field) = depthIdentifier
      have hblock : RootBlock names r (emitted.1 ++ [.depth depthIdentifier r.depth]) := by
        obtain ⟨own, below, hfirst, hemits⟩ := emits_tables names
          (Identifier.claim used r.field :: used) (Identifier.claim used r.field) r.field
          (rootDoc r) r.selection
        rw [htables] at hfirst
        exact ⟨_, own, below, depthIdentifier, by rw [hfirst]; rfl, hemits⟩
      obtain ⟨blocks, hnames, hothers, hblocks⟩ := ih (depthIdentifier :: emitted.2)
      refine ⟨(r, _) :: blocks, ?_, ?_, List.forall_mem_cons.mpr ⟨hblock, hblocks⟩⟩
      · rw [List.map_cons, hnames]
      · rw [List.map_cons, List.flatten_cons, ← hothers, List.append_assoc, List.singleton_append]

/-! ### Families -/

variable {m : StaticModule}

theorem keys_filterMap_table? (ds : List Declaration) :
    ((ds.filterMap Declaration.table?).map Prod.fst).Sublist (ds.map Declaration.identifier) := by
  induction ds with
  | nil => exact List.Sublist.slnil
  | cons d rest ih =>
      cases d with
      | table identifier doc items => exact ih.cons_cons identifier
      | depth identifier value => exact ih.cons identifier

theorem toList_family (h : m.identifiers.Nodup) :
    m.family.tables.toList = m.declarations.filterMap Declaration.table? :=
  OrdMap.toList_ofList (h.sublist (keys_filterMap_table? m.declarations))

/-- The one table declared under an identifier is what the family has under it. -/
theorem get?_family (h : m.identifiers.Nodup) {identifier doc : String} {own : List StaticItem}
    (hmem : .table identifier doc own ∈ m.declarations) :
    m.family.tables.get? identifier = some own := by
  rw [OrdMap.get?_eq_some_iff, toList_family h, List.mem_filterMap]
  exact ⟨_, hmem, rfl⟩

theorem items_family (h : m.identifiers.Nodup) {identifier doc : String} {own : List StaticItem}
    (hmem : .table identifier doc own ∈ m.declarations) : m.family.items identifier = own := by
  rw [StaticFamily.items, get?_family h hmem, Option.getD_some]

theorem length_le_size_family (h : m.identifiers.Nodup) {ds : List Declaration}
    (hsub : ds.Sublist m.declarations) (htable : ∀ d ∈ ds, d.table?.isSome = true) :
    ds.length ≤ m.family.tables.size := by
  rw [OrdMap.size, toList_family h, ← List.filterMap_length_eq_length.mpr htable]
  exact (hsub.filterMap _).length_le

end StaticModule

end SelectionCompiler
