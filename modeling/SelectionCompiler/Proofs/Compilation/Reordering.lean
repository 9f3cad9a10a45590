import SelectionCompiler.Proofs.Schema.Classification
import SelectionCompiler.Query.Basic

/-!
Schemas that declare the same types in different orders. The order in which types are
discovered numbers the nodes of the dependency graph and so decides the emission order,
the order of the arena and that of the enum names. Main statement: it decides nothing
else. Roots, the submodel of each type, resolved selections and the texts of queries are
the same.

Everything but the emission order is read off the types by name, so each part of a
compilation is shown to depend on nothing but what the schema holds under a name.
-/

namespace SelectionCompiler

/-- Resolution reads the submodels of an arena by name and not their order. -/
theorem Arena.resolve_congr {a b : Arena} (h : ∀ type, a.get? type = b.get? type) (depth : Nat)
    (s : Selection) : a.resolve depth s = b.resolve depth s := by
  induction depth generalizing s with
  | zero => rfl
  | succ depth ih => simp only [resolve, h, ih]

namespace Schema

/-- The schemas hold the same types, in whatever order, and let operations start at types of
the same names. -/
structure Reorders (schema other : Schema) : Prop where
  types : schema.types.toList.Perm other.types.toList
  queryType : schema.queryType = other.queryType
  mutationType : schema.mutationType = other.mutationType

/-- The query for a root field at the depth of the root, with the argument styles of the
schema, or the failure that there is no such operation. -/
def rootQuery (schema : Schema) (config : Config) (extraFlags : List String) (field : String)
    (arguments : Arguments) : Except Failure String :=
  ((schema.compile config).resolvedRoot field).map fun selection =>
    queryText (schema.classify extraFlags) field selection arguments

namespace Reorders

variable {schema other : Schema}

theorem typesKeyed (hsame : schema.Reorders other) (h : schema.TypesKeyed) : other.TypesKeyed :=
  fun entry hentry => h entry (hsame.types.mem_iff.mpr hentry)

theorem get?_eq (hsame : schema.Reorders other) (name : String) :
    schema.get? name = other.get? name :=
  OrdMap.get?_eq_of_perm hsame.types name

theorem kindOf?_eq (hsame : schema.Reorders other) (name : String) :
    schema.kindOf? name = other.kindOf? name := by
  rw [kindOf?, kindOf?, hsame.get?_eq]

/-! ### The graph -/

theorem selects_iff (hsame : schema.Reorders other) {name : String} {type : TypeDef} :
    schema.Selects name type ↔ other.Selects name type := by
  rw [Selects, Selects, hsame.get?_eq]

theorem fieldTargets_eq (hsame : schema.Reorders other) (type : TypeDef) :
    schema.fieldTargets type = other.fieldTargets type := by
  rw [Schema.fieldTargets_eq, Schema.fieldTargets_eq]
  apply List.map_congr_left
  intro field _
  simp only [targetOf, targetKind, hsame.kindOf?_eq]

theorem fields?_typeGraph_eq (hsame : schema.Reorders other) (h : schema.TypesKeyed)
    (name : String) : schema.typeGraph.fields? name = other.typeGraph.fields? name := by
  apply Option.ext
  intro fields
  simp only [fields?_typeGraph_eq_some_iff h, fields?_typeGraph_eq_some_iff (hsame.typesKeyed h),
    hsame.selects_iff, hsame.fieldTargets_eq]

theorem contains_typeGraph_eq (hsame : schema.Reorders other) (h : schema.TypesKeyed)
    (name : String) : schema.typeGraph.contains name = other.typeGraph.contains name :=
  congrArg Option.isSome (hsame.fields?_typeGraph_eq h name)

theorem referring_typeGraph_eq (hsame : schema.Reorders other) (h : schema.TypesKeyed)
    (name : String) : schema.typeGraph.referring name = other.typeGraph.referring name := by
  simp only [TypeGraph.referring, TypeGraph.fields, hsame.fields?_typeGraph_eq h]

/-! ### The compilation -/

theorem rootTypes_eq (hsame : schema.Reorders other) : schema.rootTypes = other.rootTypes := by
  have hname (operation : OperationKind) :
      schema.rootName? operation = other.rootName? operation := by
    cases operation with
    | query => exact hsame.queryType
    | mutation => exact hsame.mutationType
  have hroot (operation : OperationKind) :
      schema.rootType? operation = other.rootType? operation := by
    simp only [rootType?_eq, hname, hsame.get?_eq]
  rw [Schema.rootTypes_eq, Schema.rootTypes_eq, hroot, hroot]

theorem roots_compile_eq (hsame : schema.Reorders other) (h : schema.TypesKeyed)
    (config : Config) : (schema.compile config).roots = (other.compile config).roots := by
  show schema.roots config.rootDepth = other.roots config.rootDepth
  simp only [roots, rootFields, hsame.rootTypes_eq, TypeGraph.root, TypeGraph.tierSelection_eq,
    hsame.referring_typeGraph_eq h]

theorem get?_submodels_compile_eq (hsame : schema.Reorders other) (h : schema.TypesKeyed)
    (config : Config) (type : String) :
    (schema.compile config).submodels.get? type = (other.compile config).submodels.get? type := by
  simp only [get?_submodels_compile, hsame.contains_typeGraph_eq h, TypeGraph.submodel,
    TypeGraph.tierSelection_eq, hsame.referring_typeGraph_eq h]

theorem order_compile_perm (hsame : schema.Reorders other) (h : schema.TypesKeyed)
    (config : Config) : (schema.compile config).order.Perm (other.compile config).order := by
  apply (List.perm_ext_iff_of_nodup schema.nodup_emissionOrder other.nodup_emissionOrder).mpr
  intro type
  rw [mem_emissionOrder, mem_emissionOrder, hsame.contains_typeGraph_eq h]

/-! ### The classification -/

theorem argumentNames_eq (hsame : schema.Reorders other) {p q : String → Bool}
    (hpq : ∀ name, p name = q name) : schema.argumentNames p = other.argumentNames q := by
  simp only [argumentNames, rootArguments, hsame.rootTypes_eq, hpq]

theorem mem_enumTypeNames_iff (hsame : schema.Reorders other) {name : String} :
    name ∈ schema.enumTypeNames ↔ name ∈ other.enumTypeNames := by
  have hvalues : schema.types.values.Perm other.types.values := hsame.types.map Prod.snd
  exact ((hvalues.filter _).map _).mem_iff

theorem styleOf_classify_eq (hsame : schema.Reorders other) (extraFlags : List String)
    (name : String) :
    (schema.classify extraFlags).styleOf name = (other.classify extraFlags).styleOf name := by
  have hflag : (schema.classify extraFlags).isFlag name =
      (other.classify extraFlags).isFlag name := by
    rw [Bool.eq_iff_iff, isFlag_classify, isFlag_classify, hsame.argumentNames_eq]
    intro target
    rw [isCustomScalar, isCustomScalar, hsame.kindOf?_eq]
  have henum : (schema.classify extraFlags).isEnum name =
      (other.classify extraFlags).isEnum name := by
    rw [Bool.eq_iff_iff, isEnum_classify, isEnum_classify, hsame.mem_enumTypeNames_iff,
      hsame.argumentNames_eq]
    intro target
    rw [isEnumType, isEnumType, hsame.kindOf?_eq]
  rw [Classification.styleOf, Classification.styleOf, hflag, henum]

end Reorders

/-- In whatever order a schema declares its types, the roots and their order, the submodel of
each type, resolved selections and the queries for root fields are the same. The emission
order lists the same types. -/
theorem compile_reorders (schema other : Schema) (config : Config) (h : schema.TypesKeyed)
    (hsame : schema.Reorders other) :
    (schema.compile config).roots = (other.compile config).roots ∧
      (∀ type, (schema.compile config).submodels.get? type =
        (other.compile config).submodels.get? type) ∧
      (∀ selection depth, (schema.compile config).resolve selection depth =
        (other.compile config).resolve selection depth) ∧
      (∀ extraFlags field arguments, schema.rootQuery config extraFlags field arguments =
        other.rootQuery config extraFlags field arguments) ∧
      (schema.compile config).order.Perm (other.compile config).order := by
  have hroots := hsame.roots_compile_eq h config
  have hresolve (selection : Selection) (depth : Nat) :
      (schema.compile config).resolve selection depth =
        (other.compile config).resolve selection depth :=
    Arena.resolve_congr (hsame.get?_submodels_compile_eq h config) depth selection
  refine ⟨hroots, hsame.get?_submodels_compile_eq h config, hresolve, ?_,
    hsame.order_compile_perm h config⟩
  intro extraFlags field arguments
  -- the enums can be listed in another order, but a clause asks for styles only
  have hclause := Arguments.clause_eq_iff.mpr (hsame.styleOf_classify_eq extraFlags) arguments
  simp only [rootQuery, Compilation.resolvedRoot, Compilation.resolvedRoot?, Compilation.root?,
    hroots, hresolve, queryText, hclause]

/-- The schema with its types in the opposite order. -/
def reversed (schema : Schema) : Schema :=
  { schema with
    types := ⟨schema.types.toList.reverse, by
      rw [List.map_reverse]
      exact List.nodup_reverse.mpr schema.types.nodup_keys⟩ }

theorem reorders_reversed (schema : Schema) : schema.Reorders schema.reversed :=
  ⟨(List.reverse_perm _).symm, rfl, rfl⟩

theorem compile_reorders_reversed :
    sample.TypesKeyed ∧ sample.Reorders sample.reversed ∧
      (sample.compile .standard).order = ["Tag", "Query", "User", "Post"] ∧
      (sample.reversed.compile .standard).order = ["Tag", "Post", "User", "Query"] ∧
      (sample.compile .standard).roots = (sample.reversed.compile .standard).roots ∧
      sample.rootQuery .standard [] "user" ∅ = sample.reversed.rootQuery .standard [] "user" ∅ ∧
      sample.rootQuery .standard [] "user" ∅ =
        .ok ("\x7buser \x7b name posts \x7b author \x7d " ++
          "friend \x7b name posts friend ghost \x7d ghost \x7d \x7d") := by
  have hkeyed : sample.TypesKeyed := by decide
  have hsame := sample.reorders_reversed
  obtain ⟨hroots, _, _, hquery, _⟩ := compile_reorders sample sample.reversed .standard hkeyed hsame
  exact ⟨hkeyed, hsame, by decide, by decide, hroots, hquery [] "user" ∅, by rfl⟩

end Schema

end SelectionCompiler
