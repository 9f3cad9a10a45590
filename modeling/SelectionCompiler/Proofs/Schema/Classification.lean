import SelectionCompiler.Proofs.Schema.Ordinary
import SelectionCompiler.Query.Arguments

/-!
What a schema says of argument names. A clause depends on a classification through the
styles of its argument names and on nothing else. Main statement: a schema classifies the
names that its ordinary part classifies, and besides them those of the root arguments
that have to do with introspection, since they stand on an introspection field or have an
introspection type. Clauses are the same for a schema and its ordinary part exactly if
none of these names gets another style.
-/

namespace SelectionCompiler

/-! ### Clauses and styles -/

namespace Arguments

/-- The call with one argument. -/
def single (name : String) (v : Json) : Arguments := ⟨[(name, some v)], List.nodup_singleton _⟩

theorem clause_single (c : Classification) (name : String) (v : Json) :
    (single name v).clause c = "(" ++ (name ++ ":" ++ (c.styleOf name).render v) ++ ")" := by
  simp [clause, single, present, parenthesized]

end Arguments

/-- A list with one token is written differently in each style. -/
theorem ArgumentStyle.eq_of_render_list_eq {style other : ArgumentStyle}
    (h : style.render (.arr [.str "A"]) = other.render (.arr [.str "A"])) : style = other := by
  revert h
  cases style <;> cases other <;> decide

theorem Arguments.clause_eq_iff {c d : Classification} :
    (∀ arguments : Arguments, arguments.clause c = arguments.clause d) ↔
      ∀ name, c.styleOf name = d.styleOf name := by
  constructor
  · intro h name
    have hclause := h (single name (.arr [.str "A"]))
    rw [clause_single, clause_single] at hclause
    apply ArgumentStyle.eq_of_render_list_eq
    simpa using hclause
  · intro h arguments
    simp only [clause, h]

namespace Classification

variable {c d : Classification}

theorem styleOf_eq_flag_iff {name : String} : c.styleOf name = .flag ↔ c.isFlag name = true := by
  unfold styleOf
  split
  · simp [*]
  · split <;> simp [*]

theorem styleOf_eq_enumeration_iff {name : String} :
    c.styleOf name = .enumeration ↔ ¬c.isFlag name = true ∧ c.isEnum name = true := by
  unfold styleOf
  split
  · simp [*]
  · split <;> simp [*]

theorem styleOf_eq_plain_iff {name : String} :
    c.styleOf name = .plain ↔ ¬(c.isFlag name = true ∨ c.isEnum name = true) := by
  unfold styleOf
  split
  · simp [*]
  · split <;> simp [*]

/-- A classification with more flags and enums than another styles all names alike exactly if
the additional flags are flags already, and the additional enums flags or enums. -/
theorem styleOf_eq_iff_of_more {flags enums : List String}
    (hflag : ∀ name, c.isFlag name = true ↔ d.isFlag name = true ∨ name ∈ flags)
    (henum : ∀ name, c.isEnum name = true ↔ d.isEnum name = true ∨ name ∈ enums) :
    (∀ name, c.styleOf name = d.styleOf name) ↔
      (∀ name ∈ flags, d.isFlag name = true) ∧
        ∀ name ∈ enums, d.isFlag name = true ∨ d.isEnum name = true := by
  constructor
  · intro h
    constructor
    · intro name hname
      rw [← styleOf_eq_flag_iff, ← h name, styleOf_eq_flag_iff, hflag]
      exact Or.inr hname
    · intro name hname
      by_contra hplain
      -- plain for the one is plain for the other, and an additional enum is not plain
      rw [← styleOf_eq_plain_iff, ← h name, styleOf_eq_plain_iff, henum] at hplain
      exact hplain (Or.inr (Or.inr hname))
  · rintro ⟨hflags, henums⟩ name
    have hsame : c.isFlag name = d.isFlag name := by
      rw [Bool.eq_iff_iff, hflag]
      exact or_iff_left_of_imp (hflags name)
    rw [styleOf, styleOf, hsame]
    split
    · rfl
    · rename_i hnot
      -- only names that are no flags are asked whether they are enums
      have hsame : c.isEnum name = d.isEnum name := by
        rw [Bool.eq_iff_iff, henum]
        exact or_iff_left_of_imp fun hname => (henums name hname).resolve_left hnot
      rw [hsame]

end Classification

namespace Schema

variable {schema : Schema}

/-! ### Flags and enums -/

theorem isFlag_classify {extraFlags : List String} {name : String} :
    (schema.classify extraFlags).isFlag name = true ↔
      name ∈ extraFlags ∨ name ∈ Classification.defaultFlags ∨
        name ∈ schema.argumentNames schema.isCustomScalar := by
  simp only [Classification.isFlag, classify, decide_eq_true_eq, OrdSet.mem_ofList,
    List.mem_append, or_assoc]

theorem isEnum_classify {extraFlags : List String} {name : String} :
    (schema.classify extraFlags).isEnum name = true ↔
      name ∈ schema.enumTypeNames ∨ name ∈ schema.argumentNames schema.isEnumType := by
  simp only [Classification.isEnum, classify, decide_eq_true_eq, OrdSet.mem_ofList,
    List.mem_append]

/-! ### Root arguments -/

/-- The arguments of the fields of root types, each with its field. -/
def declaredArguments (schema : Schema) : List (FieldDef × ArgumentDef) :=
  schema.rootTypes.flatMap fun root =>
    root.2.fields.values.flatMap fun field => field.arguments.map (field, ·)

theorem argumentNames_eq (schema : Schema) (p : String → Bool) :
    schema.argumentNames p =
      (schema.declaredArguments.filter fun declared => p declared.2.type.target).map (·.2.name) := by
  have hlist : schema.rootArguments = schema.declaredArguments.map Prod.snd := by
    simp [rootArguments, declaredArguments, List.map_flatMap, Function.comp_def]
  rw [argumentNames, hlist, List.filter_map, List.map_map]
  rfl

/-- The argument stands on an introspection field or has an introspection type. -/
def touchesIntrospection (declared : FieldDef × ArgumentDef) : Bool :=
  isIntrospectionName declared.1.name || isIntrospectionName declared.2.type.target

/-- The names of the root arguments that have to do with introspection and whose type
satisfies `p`. -/
def introspectionArguments (schema : Schema) (p : String → Bool) : List String :=
  (schema.declaredArguments.filter fun declared =>
    touchesIntrospection declared && p declared.2.type.target).map (·.2.name)

/-! ### The ordinary part -/

theorem declaredArguments_ordinary (h : schema.TypesKeyed) (hroots : schema.RootsOrdinary) :
    schema.ordinary.declaredArguments =
      schema.declaredArguments.filter fun declared => !isIntrospectionName declared.1.name := by
  rw [declaredArguments, rootTypes_ordinary h hroots, declaredArguments, List.flatMap_map,
    List.filter_flatMap]
  congr 1
  funext root
  rw [TypeDef.values_fields_ordinary, List.filter_flatMap]
  induction root.2.fields.values with
  | nil => rfl
  | cons field rest ih =>
      cases hname : isIntrospectionName field.name <;>
        simp [hname, List.filter_map, Function.comp_def, ih]

theorem isCustomScalar_ordinary (h : schema.TypesKeyed) (name : String) :
    schema.ordinary.isCustomScalar name =
      (!isIntrospectionName name && schema.isCustomScalar name) := by
  rw [isCustomScalar, isCustomScalar, kindOf?_ordinary h]
  cases isIntrospectionName name <;> simp

theorem isEnumType_ordinary (h : schema.TypesKeyed) (name : String) :
    schema.ordinary.isEnumType name = (!isIntrospectionName name && schema.isEnumType name) := by
  rw [isEnumType, isEnumType, kindOf?_ordinary h]
  cases isIntrospectionName name <;> simp

theorem enumTypeNames_ordinary (schema : Schema) :
    schema.ordinary.enumTypeNames = schema.enumTypeNames := by
  rw [enumTypeNames, enumTypeNames, filter_types_ordinary schema (fun _ => rfl), List.map_map]
  · rfl
  · intro type henum
    simpa using (Bool.and_eq_true_iff.mp henum).2

section

variable {p q : String → Bool} (h : schema.TypesKeyed) (hroots : schema.RootsOrdinary)
  (hpq : ∀ name, q name = (!isIntrospectionName name && p name))

include h hroots hpq

theorem argumentNames_ordinary :
    schema.ordinary.argumentNames q =
      (schema.declaredArguments.filter fun declared =>
        !touchesIntrospection declared && p declared.2.type.target).map (·.2.name) := by
  rw [argumentNames_eq, declaredArguments_ordinary h hroots, List.filter_filter]
  congr 1
  apply List.filter_congr
  intro declared _
  rw [hpq, touchesIntrospection, Bool.not_or, Bool.and_comm, Bool.and_assoc]

/-- What a schema adds to the argument names of its ordinary part. -/
theorem mem_argumentNames_iff {name : String} :
    name ∈ schema.argumentNames p ↔
      name ∈ schema.ordinary.argumentNames q ∨ name ∈ schema.introspectionArguments p := by
  rw [argumentNames_ordinary h hroots hpq, argumentNames_eq, introspectionArguments,
    ← List.mem_append, ← List.map_append, List.mem_map, List.mem_map]
  refine exists_congr fun declared => and_congr_left fun _ => ?_
  simp only [List.mem_append, List.mem_filter]
  cases touchesIntrospection declared <;> simp

theorem argumentNames_ordinary_of_nil (hnone : schema.introspectionArguments p = []) :
    schema.ordinary.argumentNames q = schema.argumentNames p := by
  rw [argumentNames_ordinary h hroots hpq, argumentNames_eq]
  congr 1
  apply List.filter_congr
  intro declared hdeclared
  have hapart : ¬(touchesIntrospection declared && p declared.2.type.target) = true :=
    List.filter_eq_nil_iff.mp (List.map_eq_nil_iff.mp hnone) declared hdeclared
  revert hapart
  cases touchesIntrospection declared <;> simp

end

/-- A schema classifies what its ordinary part classifies and the names of its introspection
arguments. -/
theorem classify_ordinary (schema : Schema) (extraFlags : List String) (h : schema.TypesKeyed)
    (hroots : schema.RootsOrdinary) :
    (∀ name, (schema.classify extraFlags).isFlag name = true ↔
      (schema.ordinary.classify extraFlags).isFlag name = true ∨
        name ∈ schema.introspectionArguments schema.isCustomScalar) ∧
    (∀ name, (schema.classify extraFlags).isEnum name = true ↔
      (schema.ordinary.classify extraFlags).isEnum name = true ∨
        name ∈ schema.introspectionArguments schema.isEnumType) ∧
    (schema.introspectionArguments schema.isCustomScalar = [] →
      schema.introspectionArguments schema.isEnumType = [] →
        schema.ordinary.classify extraFlags = schema.classify extraFlags) ∧
    ((∀ arguments : Arguments, arguments.clause (schema.classify extraFlags) =
        arguments.clause (schema.ordinary.classify extraFlags)) ↔
      (∀ name ∈ schema.introspectionArguments schema.isCustomScalar,
        (schema.ordinary.classify extraFlags).isFlag name = true) ∧
      ∀ name ∈ schema.introspectionArguments schema.isEnumType,
        (schema.ordinary.classify extraFlags).isFlag name = true ∨
          (schema.ordinary.classify extraFlags).isEnum name = true) := by
  have hflag (name : String) : (schema.classify extraFlags).isFlag name = true ↔
      (schema.ordinary.classify extraFlags).isFlag name = true ∨
        name ∈ schema.introspectionArguments schema.isCustomScalar := by
    simp only [isFlag_classify, mem_argumentNames_iff h hroots (isCustomScalar_ordinary h),
      or_assoc]
  have henum (name : String) : (schema.classify extraFlags).isEnum name = true ↔
      (schema.ordinary.classify extraFlags).isEnum name = true ∨
        name ∈ schema.introspectionArguments schema.isEnumType := by
    simp only [isEnum_classify, mem_argumentNames_iff h hroots (isEnumType_ordinary h),
      enumTypeNames_ordinary, or_assoc]
  refine ⟨hflag, henum, fun hscalars henums => ?_, ?_⟩
  · rw [classify, classify, enumTypeNames_ordinary,
      argumentNames_ordinary_of_nil h hroots (isCustomScalar_ordinary h) hscalars,
      argumentNames_ordinary_of_nil h hroots (isEnumType_ordinary h) henums]
  · rw [Arguments.clause_eq_iff]
    exact Classification.styleOf_eq_iff_of_more hflag henum

/-- A schema with a flag on an introspection field and an argument that is an introspection
enum. -/
def probed : Schema :=
  (builtin.addTypes [
    TypeDef.bare "Token" .scalar, TypeDef.bare "__Kind" .enumeration,
    (TypeDef.bare "Query" .composite).addFields [
      ⟨"__probe", some (.named "ID"), [⟨"token", .named "Token"⟩]⟩,
      ⟨"list", some (.named "ID"), [⟨"of", .named "__Kind"⟩]⟩]]).setQueryType (some "Query")

theorem classify_ordinary_probed :
    probed.TypesKeyed ∧ probed.RootsOrdinary ∧
      probed.introspectionArguments probed.isCustomScalar = ["token"] ∧
      probed.introspectionArguments probed.isEnumType = ["of"] ∧
      (∀ name, (probed.classify []).isFlag name = true ↔
        (probed.ordinary.classify []).isFlag name = true ∨
          name ∈ probed.introspectionArguments probed.isCustomScalar) ∧
      ∀ name, (probed.classify []).isEnum name = true ↔
        (probed.ordinary.classify []).isEnum name = true ∨
          name ∈ probed.introspectionArguments probed.isEnumType := by
  have hkeyed : probed.TypesKeyed := by decide
  have hroots : probed.RootsOrdinary := by decide
  obtain ⟨hflag, henum, _⟩ := classify_ordinary probed [] hkeyed hroots
  exact ⟨hkeyed, hroots, by decide, by decide, hflag, henum⟩

/-- Deleting what has an introspection name can change flags, enums and clauses. -/
theorem classify_probed_ne :
    probed.TypesKeyed ∧ probed.FieldsKeyed ∧ probed.RootsOrdinary ∧
      (probed.classify []).flags.toList = Classification.defaultFlags ++ ["token"] ∧
      (probed.ordinary.classify []).flags.toList = Classification.defaultFlags ∧
      (probed.classify []).enums.toList = ["of"] ∧
      (probed.ordinary.classify []).enums.toList = [] ∧
      (Arguments.single "token" (.str "A")).clause (probed.classify []) = "(token:A)" ∧
      (Arguments.single "token" (.str "A")).clause (probed.ordinary.classify []) =
        "(token:\"A\")" := by
  decide +kernel

end Schema

end SelectionCompiler
