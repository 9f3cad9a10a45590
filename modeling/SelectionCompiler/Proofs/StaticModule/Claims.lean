import SelectionCompiler.StaticModule.OfCompilation
import SelectionCompiler.Proofs.OrdMap
import SelectionCompiler.Proofs.Selection.Basic
import SelectionCompiler.Proofs.StaticModule.Identifier

/-!
No two declarations of an emitted module have the same identifier. The identifiers in
use are passed from one step to the next and only grow. A step declares
identifiers that it claims, or that were claimed for it before: those of the
submodels by the first step of all, that of a nested table by the item that
links to it.
-/

namespace SelectionCompiler

/-- What a step from `used` to `used'` does when it declares `identifiers`, of which only
those in `ahead` may have been in use before. -/
structure Claims (used used' ahead identifiers : List String) : Prop where
  grows : used ⊆ used'
  distinct : identifiers.Nodup
  claimed : identifiers ⊆ used'
  fresh : ∀ identifier ∈ identifiers, identifier ∈ used → identifier ∈ ahead

namespace Claims

variable {used used₁ used₂ ahead ahead₁ ahead₂ identifiers identifiers₁ identifiers₂ : List String}

theorem nil (used : List String) : Claims used used [] [] :=
  ⟨fun _ h => h, List.nodup_nil, List.nil_subset _, fun _ h => absurd h List.not_mem_nil⟩

theorem claim (used : List String) (wanted : String) :
    Claims used (Identifier.claim used wanted :: used) [] [Identifier.claim used wanted] := by
  refine ⟨List.subset_cons_self _ _, List.nodup_singleton _, by simp, ?_⟩
  intro identifier hmem hused
  rw [List.mem_singleton] at hmem
  subst hmem
  exact absurd hused (Identifier.claim_notMem used wanted)

theorem ahead_singleton {identifier : String} (h : identifier ∈ used) :
    Claims used used [identifier] [identifier] :=
  ⟨fun _ h => h, List.nodup_singleton _, by simpa using h, fun _ hmem _ => hmem⟩

/-- One step after another. What the second may declare was in use before the first,
which has no right to it. -/
theorem append (h₁ : Claims used used₁ ahead₁ identifiers₁)
    (h₂ : Claims used₁ used₂ ahead₂ identifiers₂) (hused : ahead₂ ⊆ used)
    (hdisjoint : ahead₁.Disjoint ahead₂) :
    Claims used used₂ (ahead₁ ++ ahead₂) (identifiers₁ ++ identifiers₂) := by
  refine ⟨List.Subset.trans h₁.grows h₂.grows, ?_, ?_, ?_⟩
  · refine List.nodup_append.mpr ⟨h₁.distinct, h₂.distinct, ?_⟩
    rintro identifier hfirst _ hsecond rfl
    -- what both declare is ahead of the second step, and so was in use before the first
    have hsecond' := h₂.fresh _ hsecond (h₁.claimed hfirst)
    have hfirst' := h₁.fresh _ hfirst (hused hsecond')
    exact hdisjoint hfirst' hsecond'
  · rw [List.append_subset]
    exact ⟨List.Subset.trans h₁.claimed h₂.grows, h₂.claimed⟩
  · intro identifier hmem hin
    rw [List.mem_append] at hmem ⊢
    rcases hmem with hfirst | hsecond
    · exact Or.inl (h₁.fresh _ hfirst hin)
    · exact Or.inr (h₂.fresh _ hsecond (h₁.grows hin))

/-- A step that declares what the step before it has claimed. -/
theorem settle (h₁ : Claims used used₁ [] identifiers₁)
    (h₂ : Claims used₁ used₂ identifiers₁ identifiers₂) : Claims used used₂ [] identifiers₂ := by
  refine ⟨List.Subset.trans h₁.grows h₂.grows, h₂.distinct, h₂.claimed, ?_⟩
  intro identifier hmem hin
  exact h₁.fresh _ (h₂.fresh _ hmem (h₁.grows hin)) hin

end Claims

namespace StaticItem

/-- The table that a nested item links to. -/
def nested? : StaticItem → Option String
  | .nested _ table => some table
  | _ => none

end StaticItem

namespace StaticModule

variable {names : TableNames} {base : String} {used : List String}

/-! ### Tables -/

theorem claims_items (names : TableNames) (base : String) (used : List String) (s : Selection) :
    Claims used (items names base used s).2 []
      ((items names base used s).1.filterMap StaticItem.nested?) := by
  induction s using Selection.induction generalizing used with
  | nil => exact Claims.nil used
  | field name rest ih => exact ih used
  | reference name type rest ih => exact ih used
  | nested name children rest _ ih =>
      exact (Claims.claim used _).append (ih _) (List.nil_subset _) (List.disjoint_nil_left _)

theorem items_nested (names : TableNames) (base : String) (used : List String) (name : String)
    (children rest : Selection) :
    (items names base used (.nested name children :: rest)).1 =
      .nested name (Identifier.claim used (nestedBase base name)) ::
        (items names base (Identifier.claim used (nestedBase base name) :: used) rest).1 :=
  rfl

theorem listTables_nested (names : TableNames) (base : String) (used : List String)
    (name shown identifier : String) (children rest : Selection) (others : List StaticItem) :
    listTables names base used (.nested name children :: rest)
        (.nested shown identifier :: others) =
      let own := items names (nestedBase base name) used children
      let below := listTables names (nestedBase base name) own.2 children own.1
      let after := listTables names base below.2 rest others
      (.table identifier (nestedDoc (nestedBase base name)) own.1 :: (below.1 ++ after.1),
        after.2) :=
  rfl

/-- The elements of a selection declare the tables that their items link to, and tables
with new identifiers below them. -/
theorem claims_listTables (names : TableNames) (s : Selection) (base : String)
    (before used : List String)
    (hdistinct : ((items names base before s).1.filterMap StaticItem.nested?).Nodup)
    (hused : (items names base before s).1.filterMap StaticItem.nested? ⊆ used) :
    Claims used (listTables names base used s (items names base before s).1).2
      ((items names base before s).1.filterMap StaticItem.nested?)
      ((listTables names base used s (items names base before s).1).1.map
        Declaration.identifier) := by
  induction s using Selection.induction generalizing base before used with
  | nil => exact Claims.nil used
  | field name rest ih => exact ih base before used hdistinct hused
  | reference name type rest ih => exact ih base before used hdistinct hused
  | nested name children rest ihchildren ihrest =>
      rw [items_nested] at hdistinct hused ⊢
      -- that the table's identifier is not among those of the rest is all that counts
      generalize Identifier.claim before (nestedBase base name) = identifier at *
      obtain ⟨hnew, hdistinct⟩ := List.nodup_cons.mp hdistinct
      obtain ⟨hlink, hused⟩ := List.cons_subset.mp hused
      have hown := claims_items names (nestedBase base name) used children
      have hbelow := hown.settle
        (ihchildren (nestedBase base name) used _ hown.distinct hown.claimed)
      have hfirst := (Claims.ahead_singleton hlink).append hbelow (List.nil_subset _)
        (List.disjoint_nil_right _)
      have hrest := ihrest base (identifier :: before) _ hdistinct
        (List.Subset.trans hused hbelow.grows)
      have hall := hfirst.append hrest hused (List.singleton_disjoint.mpr hnew)
      simpa [listTables_nested, Declaration.identifier, StaticItem.nested?] using hall

theorem claims_tables (names : TableNames) {used : List String} {identifier : String}
    (h : identifier ∈ used) (base doc : String) (s : Selection) :
    Claims used (tables names used identifier base doc s).2 [identifier]
      ((tables names used identifier base doc s).1.map Declaration.identifier) := by
  have hown := claims_items names base used s
  have hbelow := hown.settle (claims_listTables names s base used _ hown.distinct hown.claimed)
  exact (Claims.ahead_singleton h).append hbelow (List.nil_subset _) (List.disjoint_nil_right _)

/-! ### Submodels and roots -/

theorem claimTableNames_get?_of_notMem (naming : Naming) {type : String} {ms : List Submodel}
    (h : type ∉ ms.map Submodel.typeName) (names : TableNames) (used : List String) :
    (claimTableNames naming names used ms).1.get? type = names.get? type := by
  induction ms generalizing names used with
  | nil => rfl
  | cons m rest ih =>
      rw [List.map_cons, List.mem_cons, not_or] at h
      rw [claimTableNames, ih h.2, OrdMap.get?_insert, if_neg h.1]

theorem claims_claimTableNames (naming : Naming) {ms : List Submodel}
    (h : (ms.map Submodel.typeName).Nodup) (names : TableNames) (used : List String) :
    Claims used (claimTableNames naming names used ms).2 []
      (ms.map fun m => tableOf (claimTableNames naming names used ms).1 m.typeName) := by
  induction ms generalizing names used with
  | nil => exact Claims.nil used
  | cons m rest ih =>
      rw [List.map_cons, List.nodup_cons] at h
      rw [claimTableNames, List.map_cons]
      generalize hidentifier : Identifier.claim used (naming.tableName m.typeName) = identifier
      have hfirst := Claims.claim used (naming.tableName m.typeName)
      rw [hidentifier] at hfirst
      have htable : tableOf (claimTableNames naming (names.insert m.typeName identifier)
          (identifier :: used) rest).1 m.typeName = identifier := by
        rw [tableOf, claimTableNames_get?_of_notMem naming h.1, OrdMap.get?_insert, if_pos rfl,
          Option.getD_some]
      have hall := hfirst.append (ih h.2 (names.insert m.typeName identifier) (identifier :: used))
        (List.nil_subset _) (List.disjoint_nil_right _)
      simpa [htable] using hall

theorem claims_submodelTables (naming : Naming) (typesPath : Option String) (names : TableNames)
    {ms : List Submodel} (hdistinct : (ms.map fun m => tableOf names m.typeName).Nodup)
    {used : List String} (hused : ms.map (fun m => tableOf names m.typeName) ⊆ used) :
    Claims used (submodelTables naming typesPath names used ms).2
      (ms.map fun m => tableOf names m.typeName)
      ((submodelTables naming typesPath names used ms).1.map Declaration.identifier) := by
  induction ms generalizing used with
  | nil => exact Claims.nil used
  | cons m rest ih =>
      rw [List.map_cons] at hdistinct hused ⊢
      obtain ⟨hnew, hdistinct⟩ := List.nodup_cons.mp hdistinct
      obtain ⟨hlink, hused⟩ := List.cons_subset.mp hused
      have hfirst := claims_tables names hlink m.typeName
        (submodelDoc naming typesPath m.typeName) m.selection
      have hrest := ih hdistinct (List.Subset.trans hused hfirst.grows)
      have hall := hfirst.append hrest hused (List.singleton_disjoint.mpr hnew)
      simpa [submodelTables] using hall

theorem claims_rootTables (names : TableNames) (rs : List Root) (used : List String) :
    Claims used (rootTables names used rs).2 []
      ((rootTables names used rs).1.map Declaration.identifier) := by
  induction rs generalizing used with
  | nil => exact Claims.nil used
  | cons r rest ih =>
      have htable := (Claims.claim used r.field).settle
        (claims_tables names List.mem_cons_self r.field (rootDoc r) r.selection)
      have hroot := htable.append (Claims.claim _ (depthName r.field)) (List.nil_subset _)
        (List.disjoint_nil_right _)
      have hall := hroot.append (ih _) (List.nil_subset _) (List.disjoint_nil_right _)
      simpa [rootTables, Declaration.identifier] using hall

end StaticModule

namespace Compilation

open StaticModule

/-- The identifiers of the submodels' tables in the emitted module. -/
def tableNames (c : Compilation) (naming : Naming) : TableNames :=
  (claimTableNames naming ∅ [] c.submodels.submodels).1

theorem nodup_identifiers_staticModule {c : Compilation}
    (h : (c.submodels.submodels.map Submodel.typeName).Nodup) (naming : Naming) (config : Config) :
    (c.staticModule naming config).identifiers.Nodup := by
  have hnames := claims_claimTableNames naming h ∅ []
  have hsubmodels := hnames.settle (claims_submodelTables naming config.typesPath
    (c.tableNames naming) hnames.distinct hnames.claimed)
  have hall := hsubmodels.append (claims_rootTables (c.tableNames naming) c.roots.values _)
    (List.nil_subset _) (List.disjoint_nil_right _)
  rw [← List.map_append] at hall
  exact hall.distinct

end Compilation

end SelectionCompiler
