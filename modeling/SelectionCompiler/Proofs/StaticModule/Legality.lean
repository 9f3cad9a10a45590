import SelectionCompiler.Proofs.Compilation.Closed
import SelectionCompiler.Proofs.StaticModule.Wanted
import SelectionCompiler.Proofs.Text.Casing

/-!
Which identifiers are legal. Keywords and reserved names are written so that they are, but
casings drop the underscores in front of a digit, and no identifier starts with
one. Main statement: the identifiers of the module of a schema are legal exactly if
no type leads with a digit after underscores, unless types keep their names, and no
root field does.
-/

namespace SelectionCompiler

open StaticModule Text

namespace Identifier

/-- The keywords of the language, with those that it reserves. -/
def languageKeywords : List String :=
  ["as", "break", "const", "continue", "crate", "else", "enum", "extern", "false", "fn", "for",
    "if", "impl", "in", "let", "loop", "match", "mod", "move", "mut", "pub", "ref", "return",
    "self", "Self", "static", "struct", "super", "trait", "true", "type", "unsafe", "use",
    "where", "while", "async", "await", "dyn", "abstract", "become", "box", "do", "final", "gen",
    "macro", "override", "priv", "try", "typeof", "unsized", "virtual", "yield"]

/-- The keywords that stand in paths, which no raw identifier is made of. -/
def pathKeywords : List String := ["crate", "self", "super", "Self"]

/-- A raw identifier made of a keyword, or else a name that is no keyword and not the
underscore alone. -/
def IsLegal (identifier : String) : Prop :=
  (∃ keyword ∈ languageKeywords, keyword ∉ pathKeywords ∧ identifier = "r#" ++ keyword) ∨
    Sdl.IsName identifier ∧ identifier ≠ "_" ∧ identifier ∉ languageKeywords

instance (identifier : String) : Decidable (IsLegal identifier) := by
  unfold IsLegal
  infer_instance

theorem isLegal_of_mem_reserved {name : String} (h : name ∈ reserved) :
    Sdl.IsName name ∧ IsLegal (ofName name) := by
  revert name
  decide +kernel

/-- Every keyword that is written as a raw identifier may be. -/
theorem mem_languageKeywords_of_mem_keywords {name : String} (h : name ∈ keywords) :
    Sdl.IsName name ∧ name ∉ reserved ∧ name ∈ languageKeywords ∧ name ∉ pathKeywords := by
  revert name
  decide +kernel

/-- No keyword is left as it is. -/
theorem mem_of_mem_languageKeywords {name : String} (h : name ∈ languageKeywords) :
    name ∈ reserved ∨ name ∈ keywords := by
  revert name
  decide +kernel

theorem isLegal_of_mem_keywords {name : String} (h : name ∈ keywords) :
    Sdl.IsName name ∧ IsLegal (ofName name) := by
  obtain ⟨hname, hreserved, hlanguage, hpath⟩ := mem_languageKeywords_of_mem_keywords h
  have hraw : ofName name = "r#" ++ name := by simp [ofName, hreserved, h]
  exact ⟨hname, Or.inl ⟨name, hlanguage, hpath, hraw⟩⟩

variable {name : String}

theorem isLegal_ofName_iff (h : name.toList.all Sdl.Token.isNamePart = true) :
    IsLegal (ofName name) ↔ Sdl.IsName name := by
  by_cases hreserved : name ∈ reserved
  · obtain ⟨hname, hlegal⟩ := isLegal_of_mem_reserved hreserved
    exact iff_of_true hlegal hname
  by_cases hkeyword : name ∈ keywords
  · obtain ⟨hname, hlegal⟩ := isLegal_of_mem_keywords hkeyword
    exact iff_of_true hlegal hname
  rw [ofName_eq_self hreserved hkeyword]
  constructor
  · rintro (⟨keyword, _, _, rfl⟩ | ⟨hname, _⟩)
    · -- a raw identifier has a character that names do not have
      have hmark : '#' ∈ ("r#" ++ keyword).toList := by simp
      exact absurd (List.all_eq_true.mp h '#' hmark) (by decide)
    · exact hname
  · intro hname
    refine Or.inr ⟨hname, ?_, fun hmem => ?_⟩
    · rintro rfl
      exact hreserved (by decide)
    · exact (mem_of_mem_languageKeywords hmem).elim hreserved hkeyword

theorem all_isNamePart_repr (n : Nat) : n.repr.toList.all Sdl.Token.isNamePart = true := by
  refine List.all_eq_true.mpr fun c hc => ?_
  rw [Sdl.Token.isNamePart, Char.isAlphanum, isDigit_of_mem_repr hc, Bool.or_true, Bool.true_or]

/-- What is claimed for characters of names is legal if they make up a name. A number at
the end does not matter. -/
theorem IsClaimOf.isLegal_iff {wanted identifier : String} (h : IsClaimOf wanted identifier)
    (hwanted : Sdl.IsSpelling wanted) : IsLegal identifier ↔ Sdl.IsName wanted := by
  obtain ⟨used, rfl⟩ := h
  obtain ⟨hne, hparts⟩ := hwanted
  rcases claim_eq used wanted with heq | ⟨n, heq⟩
  · rw [heq, isLegal_ofName_iff hparts]
  · have hending : ("_" ++ n.repr).toList.all Sdl.Token.isNamePart = true := by
      rw [String.toList_append, List.all_append, all_isNamePart_repr, Bool.and_true]
      decide
    have hnumbered : (wanted ++ ("_" ++ n.repr)).toList.all Sdl.Token.isNamePart = true := by
      rw [String.toList_append, List.all_append, hparts, hending, Bool.and_true]
    rw [heq, numbered, String.append_assoc, isLegal_ofName_iff hnumbered,
      Sdl.isName_append_iff hne hending]

theorem forall_isLegal_iff {wanted identifiers : List String}
    (h : List.Forall₂ IsClaimOf wanted identifiers) (hwanted : ∀ w ∈ wanted, Sdl.IsSpelling w) :
    (∀ identifier ∈ identifiers, IsLegal identifier) ↔ ∀ w ∈ wanted, Sdl.IsName w := by
  induction h with
  | nil => simp
  | cons hfirst _ ih =>
      obtain ⟨hspelling, hrest⟩ := List.forall_mem_cons.mp hwanted
      rw [List.forall_mem_cons, List.forall_mem_cons, hfirst.isLegal_iff hspelling, ih hrest]

end Identifier

/-! ### Wanted names -/

namespace StaticModule

open Element

theorem isName_nestedBase {base name : String} (h : Sdl.IsName base) (hname : Sdl.IsName name) :
    Sdl.IsName (nestedBase base name) :=
  (h.append (by decide)).append hname.2

/-- The field of a nested selection is called by a name. -/
def NestsNamed : Element → Prop
  | .nested name _ => Sdl.IsName name
  | _ => True

theorem isName_of_mem_wantedNamesAll {s : Selection} (hs : s.Everywhere NestsNamed)
    {base : String} (hbase : Sdl.IsName base) :
    ∀ wanted ∈ wantedNamesAll base s, Sdl.IsName wanted := by
  induction s using Selection.induction generalizing base with
  | nil => exact fun _ h => absurd h List.not_mem_nil
  | field name rest ih => exact ih (Selection.everywhere_cons.mp hs).2.2 hbase
  | reference name type rest ih => exact ih (Selection.everywhere_cons.mp hs).2.2 hbase
  | nested name children rest ihchildren ihrest =>
      obtain ⟨hname, hchildren, hrest⟩ := Selection.everywhere_cons.mp hs
      have hnested := isName_nestedBase hbase hname
      refine List.forall_mem_cons.mpr ⟨hnested, List.forall_mem_append.mpr ⟨?_, ?_⟩⟩
      · exact ihchildren hchildren hnested
      · exact ihrest hrest hbase

end StaticModule

/-- Types are called as the policy has it, without exceptions. -/
def NamingPolicy.naming (policy : NamingPolicy) : Naming := ⟨policy, ∅, none⟩

/-- Submodels, roots and the fields of nested selections are called by names. -/
structure Compilation.CalledByNames (c : Compilation) : Prop where
  submodels : ∀ m ∈ c.submodels.submodels,
    Sdl.IsName m.typeName ∧ m.selection.Everywhere NestsNamed
  roots : ∀ r ∈ c.roots.values, Sdl.IsName r.field ∧ r.selection.Everywhere NestsNamed

namespace NamingPolicy

variable {type : String}

theorem isSpelling_tableName (policy : NamingPolicy) (h : Sdl.IsName type) :
    Sdl.IsSpelling (policy.naming.tableName type) := by
  change Sdl.IsSpelling (policy.apply type ++ "Map")
  by_cases hpolicy : policy = .keep
  · subst hpolicy
    exact (h.append (by decide)).isSpelling
  · exact (recases_apply hpolicy h).isSpelling_append (by decide)

theorem isName_tableName_iff (policy : NamingPolicy) (h : Sdl.IsName type) :
    Sdl.IsName (policy.naming.tableName type) ↔ policy ≠ .keep → leadsWithDigit type = false := by
  change Sdl.IsName (policy.apply type ++ "Map") ↔ _
  by_cases hpolicy : policy = .keep
  · subst hpolicy
    exact iff_of_true (h.append (by decide)) fun hkeep => absurd rfl hkeep
  · rw [(recases_apply hpolicy h).isName_append_iff (by decide)]
    exact ⟨fun hdigit _ => hdigit, fun hdigit => hdigit hpolicy⟩

end NamingPolicy

namespace Compilation

open StaticModule Identifier

variable {c : Compilation}

theorem CalledByNames.isSpelling_of_mem_wantedNames (h : c.CalledByNames) (policy : NamingPolicy) :
    ∀ wanted ∈ c.wantedNames policy.naming, Sdl.IsSpelling wanted := by
  refine List.forall_mem_append.mpr
    ⟨List.forall_mem_flatMap.mpr fun m hm => ?_, List.forall_mem_flatMap.mpr fun r hr => ?_⟩
  · obtain ⟨hname, hselection⟩ := h.submodels m hm
    refine List.forall_mem_cons.mpr ⟨policy.isSpelling_tableName hname, fun wanted hwanted => ?_⟩
    exact (isName_of_mem_wantedNamesAll hselection hname wanted hwanted).isSpelling
  · obtain ⟨hname, hselection⟩ := h.roots r hr
    refine List.forall_mem_cons.mpr ⟨hname.isSpelling, List.forall_mem_append.mpr ⟨?_, ?_⟩⟩
    · exact fun wanted hwanted =>
        (isName_of_mem_wantedNamesAll hselection hname wanted hwanted).isSpelling
    · rw [List.forall_mem_singleton]
      exact (recases_shoutingCase hname).isSpelling_append (by decide)

theorem CalledByNames.isName_wantedNames_iff (h : c.CalledByNames) (policy : NamingPolicy) :
    (∀ wanted ∈ c.wantedNames policy.naming, Sdl.IsName wanted) ↔
      (∀ m ∈ c.submodels.submodels, policy ≠ .keep → leadsWithDigit m.typeName = false) ∧
        ∀ r ∈ c.roots.values, leadsWithDigit r.field = false := by
  rw [wantedNames, List.forall_mem_append, List.forall_mem_flatMap, List.forall_mem_flatMap]
  refine and_congr (forall₂_congr fun m hm => ?_) (forall₂_congr fun r hr => ?_)
  · obtain ⟨hname, hselection⟩ := h.submodels m hm
    rw [Submodel.wantedNames, List.forall_mem_cons, policy.isName_tableName_iff hname]
    exact and_iff_left (isName_of_mem_wantedNamesAll hselection hname)
  · obtain ⟨hname, hselection⟩ := h.roots r hr
    rw [Root.wantedNames, List.forall_mem_cons, List.forall_mem_append, List.forall_mem_singleton,
      depthName, (recases_shoutingCase hname).isName_append_iff (by decide), and_iff_right hname]
    exact and_iff_right (isName_of_mem_wantedNamesAll hselection hname)

/-- Whatever selections are nested in one another, only types and root fields can lead to
identifiers that are not legal. -/
theorem CalledByNames.isLegal_iff (h : c.CalledByNames)
    (hdistinct : (c.submodels.submodels.map Submodel.typeName).Nodup) (policy : NamingPolicy)
    (config : Config) :
    (∀ identifier ∈ (c.staticModule policy.naming config).identifiers, IsLegal identifier) ↔
      (∀ m ∈ c.submodels.submodels, policy ≠ .keep → leadsWithDigit m.typeName = false) ∧
        ∀ r ∈ c.roots.values, leadsWithDigit r.field = false := by
  have hclaimed := claimedFor_staticModule hdistinct policy.naming config
  rw [identifiers, forall_isLegal_iff hclaimed (h.isSpelling_of_mem_wantedNames policy),
    h.isName_wantedNames_iff policy]

end Compilation

/-! ### Schemas -/

/-- No selection is nested in those that refer to submodels. -/
theorem TypeGraph.everywhere_referring (g : TypeGraph) (type : String) :
    (g.referring type).Everywhere NestsNamed := by
  rw [TypeGraph.referring]
  induction g.fields type with
  | nil => exact Selection.everywhere_nil
  | cons field rest ih =>
      rw [List.map_cons, Selection.everywhere_cons]
      split
      · exact ⟨trivial, Selection.everywhere_nil, ih⟩
      · exact ⟨trivial, Selection.everywhere_nil, ih⟩

namespace Schema

/-- All types and fields of a schema are called by names. -/
def Named (schema : Schema) : Prop :=
  ∀ type ∈ schema.types.values,
    Sdl.IsName type.name ∧ ∀ field ∈ type.fields.values, Sdl.IsName field.name

instance (schema : Schema) : Decidable schema.Named :=
  inferInstanceAs (Decidable (∀ type ∈ schema.types.values,
    Sdl.IsName type.name ∧ ∀ field ∈ type.fields.values, Sdl.IsName field.name))

variable {schema : Schema}

theorem Named.calledByNames_compile (h : schema.Named) (config : Config) :
    (schema.compile config).CalledByNames := by
  refine ⟨fun m hm => ?_, fun r hr => ?_⟩
  · obtain ⟨name, hget⟩ := OrdMap.mem_values_iff.mp hm
    obtain ⟨hgraph, rfl⟩ := of_mem_submodels_compile (OrdMap.get?_eq_some_iff.mp hget)
    obtain ⟨type, htype, rfl⟩ := exists_of_contains_typeGraph hgraph
    exact ⟨(h type htype).1, schema.typeGraph.everywhere_referring type.name⟩
  · obtain ⟨start, hstart, reference, _, rfl⟩ := mem_roots_compile hr
    obtain ⟨type, htype, hfield⟩ := exists_of_mem_rootFields hstart
    exact ⟨(h type htype).2 start.2 hfield, schema.typeGraph.everywhere_referring _⟩

/-- The identifiers of the module of a schema are legal exactly if no type leads with a digit
after underscores, unless types keep their names, and no root field does. -/
theorem isLegal_identifiers_iff (schema : Schema) (h : schema.Named) (policy : NamingPolicy)
    (config : Config) :
    (∀ identifier ∈ ((schema.compile config).staticModule policy.naming config).identifiers,
      Identifier.IsLegal identifier) ↔
    (∀ m ∈ (schema.compile config).submodels.submodels,
      policy ≠ .keep → leadsWithDigit m.typeName = false) ∧
    ∀ r ∈ (schema.compile config).roots.values, leadsWithDigit r.field = false :=
  (h.calledByNames_compile config).isLegal_iff (schema.nodup_typeNames_compile config) policy config

theorem isLegal_identifiers_iff_sample : sample.Named ∧
    ∀ identifier ∈ ((sample.compile .standard).staticModule NamingPolicy.pascal.naming
      .standard).identifiers, Identifier.IsLegal identifier := by
  have h : sample.Named := by decide +kernel
  exact ⟨h, (isLegal_identifiers_iff sample h .pascal .standard).mpr (by decide +kernel)⟩

/-- A type and a root field that lead with a digit after an underscore. -/
def digits : Schema :=
  (builtin.addTypes [
    (TypeDef.bare "Query" .composite).addFields [⟨"_1", some (.named "_1"), []⟩],
    (TypeDef.bare "_1" .composite).addFields [⟨"id", some (.named "ID"), []⟩]]).setQueryType
      (some "Query")

/-- The underscores of the names are lost with the casing, and the digits lead. -/
theorem not_isLegal_digits : digits.Named ∧
    ((digits.compile .standard).staticModule NamingPolicy.pascal.naming .standard).identifiers =
      ["1Map", "QueryMap", "_1", "1_DEPTH"] ∧
    ¬Identifier.IsLegal "1Map" ∧ ¬Identifier.IsLegal "1_DEPTH" := by
  decide +kernel

end Schema

end SelectionCompiler
