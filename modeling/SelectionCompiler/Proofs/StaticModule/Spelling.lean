import SelectionCompiler.Proofs.StaticModule.Claims
import SelectionCompiler.Proofs.StaticModule.Lines
import SelectionCompiler.Proofs.Text.Words

/-!
What is emitted is readable. Identifiers come from names and from what names are put
together of, and so do the comments; nothing else gets into a line but the paths
of the settings.
-/

namespace SelectionCompiler

open StaticModule Identifier

/-- The field of the element, and the type it refers to, are called by names. -/
def Element.Named : Element → Prop
  | .field name => Sdl.IsName name
  | .nested name _ => Sdl.IsName name
  | .reference name type => Sdl.IsName name ∧ Sdl.IsName type

instance : DecidablePred Element.Named
  | .field name => inferInstanceAs (Decidable (Sdl.IsName name))
  | .nested name _ => inferInstanceAs (Decidable (Sdl.IsName name))
  | .reference name type => inferInstanceAs (Decidable (Sdl.IsName name ∧ Sdl.IsName type))

/-- All types and fields of a compilation are called by names. -/
structure Compilation.Named (c : Compilation) : Prop where
  submodels : ∀ m ∈ c.submodels.submodels,
    Sdl.IsName m.typeName ∧ m.selection.Everywhere Element.Named
  roots : ∀ r ∈ c.roots.values,
    Sdl.IsName r.field ∧ Sdl.IsName r.returnType ∧ r.selection.Everywhere Element.Named

/-- The type is rendered in characters of identifiers. -/
def Naming.Spells (naming : Naming) (type : String) : Prop :=
  (naming.render type).toList.all isChar = true

instance (naming : Naming) (type : String) : Decidable (naming.Spells type) :=
  inferInstanceAs (Decidable (_ = true))

/-- The settings name modules by their paths. Of these paths it only matters here that
neither goes over the end of a line. -/
structure Config.PathsOnOneLine (config : Config) : Prop where
  helpers : Text.OneLine config.helpersPath
  types : ∀ path, config.typesPath = some path → Text.OneLine path

/-! ### Names in identifiers -/

namespace Sdl

theorem isChar_of_isNamePart {c : Char} (h : Token.isNamePart c = true) :
    Identifier.isChar c = true := by
  rw [Token.isNamePart] at h
  rw [Identifier.isChar, h, Bool.true_or]

theorem all_isChar_upperForm {c : Char} (h : Token.isNamePart c = true) :
    (Text.upperForm c).all Identifier.isChar = true :=
  forall_isNamePart (p := fun c => (Text.upperForm c).all Identifier.isChar = true)
    (by decide +kernel) h

variable {name : String}

theorem IsName.spellable (h : IsName name) : Identifier.Spellable name :=
  ⟨h.ne_empty, List.all_eq_true.mpr fun _ hc => isChar_of_isNamePart (h.isNamePart hc)⟩

theorem IsName.all_isChar_shoutingCase (h : IsName name) :
    (Text.shoutingCase name).toList.all Identifier.isChar = true := by
  rw [List.all_eq_true]
  intro c hc
  rcases Text.mem_shoutingCase hc with rfl | ⟨d, hd, _, hupper⟩
  · decide
  · exact List.all_eq_true.mp (all_isChar_upperForm (h.isNamePart hd)) c hupper

end Sdl

theorem Identifier.Spellable.oneLine {name : String} (h : Spellable name) : Text.OneLine name :=
  WellFormed.oneLine ⟨name, h, Or.inl rfl⟩

namespace StaticModule

theorem spellable_nestedBase {base name : String} (h : Spellable base) (hname : Sdl.IsName name) :
    Spellable (nestedBase base name) :=
  (h.append (by decide)).append hname.spellable.2

theorem spellable_depthName {field : String} (h : Sdl.IsName field) :
    Spellable (depthName field) :=
  Spellable.prepend ⟨by decide, by decide⟩ h.all_isChar_shoutingCase

theorem spellable_tableName {naming : Naming} {type : String} (h : naming.Spells type) :
    Spellable (naming.tableName type) :=
  Spellable.prepend ⟨by decide, by decide⟩ h

/-! ### Comments -/

theorem oneLine_nestedDoc {base : String} (h : Text.OneLine base) :
    Text.OneLine (nestedDoc base) := by
  show Text.OneLine ("Inline selection of `" ++ base ++ "`.")
  simp only [Text.oneLine_append]
  exact ⟨⟨by decide, h⟩, by decide⟩

theorem oneLine_submodelDoc {naming : Naming} {config : Config} {type : String}
    (hconfig : config.PathsOnOneLine) (hnaming : naming.Spells type) (h : Sdl.IsName type) :
    Text.OneLine (submodelDoc naming config.typesPath type) := by
  unfold submodelDoc
  split
  · rename_i path hpath
    have hrendered : Text.OneLine (naming.render type) := by
      intro hmem
      exact absurd (List.all_eq_true.mp hnaming _ hmem) (by decide)
    simp only [Text.oneLine_append]
    exact ⟨⟨⟨⟨by decide, hconfig.types path hpath⟩, by decide⟩, hrendered⟩, by decide⟩
  · simp only [Text.oneLine_append]
    exact ⟨⟨by decide, h.oneLine⟩, by decide⟩

theorem oneLine_rootDoc {r : Root} (hfield : Sdl.IsName r.field)
    (htype : Sdl.IsName r.returnType) : Text.OneLine (rootDoc r) := by
  have hkeyword : Text.OneLine r.operation.keyword := by cases r.operation <;> decide
  show Text.OneLine ("`" ++ r.operation.keyword ++ " " ++ r.field ++ "` returning `"
    ++ r.returnType ++ "`.")
  simp only [Text.oneLine_append]
  exact ⟨⟨⟨⟨⟨⟨by decide, hkeyword⟩, by decide⟩, hfield.oneLine⟩, by decide⟩, htype.oneLine⟩,
    by decide⟩

/-! ### Tables -/

/-- Every name of a type has a well-formed identifier. -/
def TableNames.WellFormed (names : TableNames) : Prop :=
  ∀ type, Sdl.IsName type → Identifier.WellFormed (tableOf names type)

theorem wellFormed_claimTableNames {naming : Naming} {names : TableNames} (h : names.WellFormed)
    {ms : List Submodel} (hms : ∀ m ∈ ms, naming.Spells m.typeName) (used : List String) :
    (claimTableNames naming names used ms).1.WellFormed := by
  induction ms generalizing names used with
  | nil => exact h
  | cons m rest ih =>
      refine ih ?_ (fun other hother => hms other (List.mem_cons_of_mem _ hother)) _
      intro type htype
      rw [tableOf, OrdMap.get?_insert]
      split
      · exact (spellable_tableName (hms m List.mem_cons_self)).wellFormed_claim used
      · exact h type htype

variable {names : TableNames}

theorem readable_items (hnames : names.WellFormed) {s : Selection}
    (hs : s.Everywhere Element.Named) {base : String} (hbase : Spellable base)
    (used : List String) : ∀ item ∈ (items names base used s).1, item.Readable := by
  induction s using Selection.induction generalizing used with
  | nil => exact fun _ h => absurd h List.not_mem_nil
  | field name rest ih =>
      obtain ⟨hname, _, hrest⟩ := Selection.everywhere_cons.mp hs
      exact List.forall_mem_cons.mpr ⟨hname, ih hrest used⟩
  | reference name type rest ih =>
      obtain ⟨hname, _, hrest⟩ := Selection.everywhere_cons.mp hs
      exact List.forall_mem_cons.mpr ⟨⟨hname.1, hnames type hname.2⟩, ih hrest used⟩
  | nested name children rest _ ih =>
      obtain ⟨hname, _, hrest⟩ := Selection.everywhere_cons.mp hs
      have hidentifier := (spellable_nestedBase hbase hname).wellFormed_claim used
      exact List.forall_mem_cons.mpr ⟨⟨hname, hidentifier⟩, ih hrest _⟩

theorem readable_listTables (hnames : names.WellFormed) {s : Selection}
    (hs : s.Everywhere Element.Named) {base : String} (hbase : Spellable base)
    (before used : List String) :
    ∀ d ∈ (listTables names base used s (items names base before s).1).1, d.Readable := by
  induction s using Selection.induction generalizing base before used with
  | nil => exact fun _ h => absurd h List.not_mem_nil
  | field name rest ih => exact ih (Selection.everywhere_cons.mp hs).2.2 hbase before used
  | reference name type rest ih =>
      exact ih (Selection.everywhere_cons.mp hs).2.2 hbase before used
  | nested name children rest ihchildren ihrest =>
      obtain ⟨hname, hchildren, hrest⟩ := Selection.everywhere_cons.mp hs
      have hnested := spellable_nestedBase hbase hname
      rw [items_nested, listTables_nested]
      refine List.forall_mem_cons.mpr ⟨⟨hnested.wellFormed_claim before,
        oneLine_nestedDoc hnested.oneLine, readable_items hnames hchildren hnested used⟩, ?_⟩
      intro d hd
      rcases List.mem_append.mp hd with hbelow | hafter
      · exact ihchildren hchildren hnested _ _ d hbelow
      · exact ihrest hrest hbase _ _ d hafter

theorem readable_tables (hnames : names.WellFormed) {identifier base doc : String}
    (hidentifier : Identifier.WellFormed identifier) (hbase : Spellable base)
    (hdoc : Text.OneLine doc) {s : Selection} (hs : s.Everywhere Element.Named)
    (used : List String) : ∀ d ∈ (tables names used identifier base doc s).1, d.Readable :=
  List.forall_mem_cons.mpr ⟨⟨hidentifier, hdoc, readable_items hnames hs hbase used⟩,
    readable_listTables hnames hs hbase used _⟩

theorem readable_submodelTables (hnames : names.WellFormed) {naming : Naming} {config : Config}
    (hconfig : config.PathsOnOneLine) {ms : List Submodel}
    (hms : ∀ m ∈ ms, naming.Spells m.typeName ∧ Sdl.IsName m.typeName ∧
      m.selection.Everywhere Element.Named) (used : List String) :
    ∀ d ∈ (submodelTables naming config.typesPath names used ms).1, d.Readable := by
  induction ms generalizing used with
  | nil => exact fun _ h => absurd h List.not_mem_nil
  | cons m rest ih =>
      obtain ⟨⟨hspells, hname, hselection⟩, hrest⟩ := List.forall_mem_cons.mp hms
      intro d hd
      rcases List.mem_append.mp hd with hfirst | hothers
      · exact readable_tables hnames (hnames _ hname) hname.spellable
          (oneLine_submodelDoc hconfig hspells hname) hselection used d hfirst
      · exact ih hrest _ d hothers

theorem readable_rootTables (hnames : names.WellFormed) {rs : List Root}
    (hrs : ∀ r ∈ rs, Sdl.IsName r.field ∧ Sdl.IsName r.returnType ∧
      r.selection.Everywhere Element.Named) (used : List String) :
    ∀ d ∈ (rootTables names used rs).1, d.Readable := by
  induction rs generalizing used with
  | nil => exact fun _ h => absurd h List.not_mem_nil
  | cons r rest ih =>
      obtain ⟨⟨hfield, htype, hselection⟩, hrest⟩ := List.forall_mem_cons.mp hrs
      intro d hd
      rcases List.mem_append.mp hd with hfirst | hothers
      · exact readable_tables hnames (hfield.spellable.wellFormed_claim used) hfield.spellable
          (oneLine_rootDoc hfield htype) hselection _ d hfirst
      · rcases List.mem_cons.mp hothers with rfl | hothers
        · exact (spellable_depthName hfield).wellFormed_claim _
        · exact ih hrest _ d hothers

end StaticModule

/-- The module of a compilation whose types and fields are called by names is
readable. -/
theorem Compilation.Named.readable {c : Compilation} (h : c.Named) {naming : Naming}
    (hnaming : ∀ m ∈ c.submodels.submodels, naming.Spells m.typeName) {config : Config}
    (hconfig : config.PathsOnOneLine) : (c.staticModule naming config).Readable := by
  have hempty : TableNames.WellFormed ∅ := fun _ htype => htype.spellable.wellFormed_ofName
  have hnames := wellFormed_claimTableNames hempty hnaming []
  refine ⟨hconfig.helpers, ?_⟩
  intro d hd
  rcases List.mem_append.mp hd with hsubmodel | hroot
  · exact readable_submodelTables hnames hconfig
      (fun m hm => ⟨hnaming m hm, h.submodels m hm⟩) _ d hsubmodel
  · exact readable_rootTables hnames h.roots _ d hroot

end SelectionCompiler
