import SelectionCompiler.Proofs.Schema.Classification

/-!
Which names a schema makes flags and which enums. The predicates below say it name by name
and without an order: an argument counts when it stands on a field of a composite type that
the schema names for operations to start at, and is judged by the type below all wrappers.
Main statement: a classification holds for these names and no others, lists each of them
once, the additional flags and then the default flags first, and styles every name by them.
-/

namespace SelectionCompiler

namespace TypeRef

/-- The name stands below all the wrappers of the reference. -/
inductive Wraps : TypeRef → String → Prop
  | named (name : String) : Wraps (.named name) name
  | list {item : TypeRef} {name : String} : Wraps item name → Wraps (.list item) name
  | nonNull {inner : TypeRef} {name : String} : Wraps inner name → Wraps (.nonNull inner) name

theorem wraps_target (reference : TypeRef) : reference.Wraps reference.target := by
  induction reference with
  | named name => exact .named name
  | list item ih => exact .list ih
  | nonNull inner ih => exact .nonNull ih

theorem wraps_iff {reference : TypeRef} {name : String} :
    reference.Wraps name ↔ reference.target = name := by
  constructor
  · intro h
    induction h with
    | named name => rfl
    | list _ ih => exact ih
    | nonNull _ ih => exact ih
  · rintro rfl
    exact reference.wraps_target

end TypeRef

namespace Schema

variable {schema : Schema} {extraFlags : List String} {name : String}

/-! ### Names that are flags and names that are enums -/

/-- The argument stands on a field of a type at which operations start: one that the schema
names for a kind of operation, that is present, and that is composite. -/
def HasRootArgument (schema : Schema) (argument : ArgumentDef) : Prop :=
  ∃ operation, ∃ start ∈ schema.rootName? operation, ∃ type, schema.get? start = some type ∧
    type.kind = .composite ∧ ∃ field ∈ type.fields.values, argument ∈ field.arguments

/-- The name is that of a root argument whose type, without its wrappers, has the property. -/
def NamesArgumentOf (schema : Schema) (p : String → Prop) (name : String) : Prop :=
  ∃ argument, schema.HasRootArgument argument ∧ argument.name = name ∧
    ∃ target, argument.type.Wraps target ∧ p target

/-- A scalar of the schema that is not built in. -/
def HasCustomScalar (schema : Schema) (target : String) : Prop :=
  schema.kindOf? target = some .scalar ∧ target ∉ builtinScalars

def HasEnum (schema : Schema) (target : String) : Prop :=
  schema.kindOf? target = some .enumeration

/-- The name of an enum type outside introspection. -/
def NamesEnum (schema : Schema) (name : String) : Prop :=
  ∃ type ∈ schema.types.values, type.kind = .enumeration ∧
    isIntrospectionName type.name = false ∧ type.name = name

/-- A flag given as such, a default flag, or a root argument of a custom scalar. -/
def Flags (schema : Schema) (extraFlags : List String) (name : String) : Prop :=
  name ∈ extraFlags ∨ name ∈ Classification.defaultFlags ∨
    schema.NamesArgumentOf schema.HasCustomScalar name

/-- An enum type, or a root argument of an enum type. -/
def Enumerates (schema : Schema) (name : String) : Prop :=
  schema.NamesEnum name ∨ schema.NamesArgumentOf schema.HasEnum name

/-- A classification that says what the schema and the additional flags say. -/
structure Classifies (schema : Schema) (extraFlags : List String) (c : Classification) :
    Prop where
  flag : ∀ name, c.isFlag name = true ↔ schema.Flags extraFlags name
  enumeration : ∀ name, c.isEnum name = true ↔ schema.Enumerates name
  /-- No name is listed twice, and none that is not a flag is listed. -/
  flagsOnce : ∀ name, c.flags.toList.count name = (c.isFlag name).toNat
  enumsOnce : ∀ name, c.enums.toList.count name = (c.isEnum name).toNat
  order : extraFlags.eraseDups ++ Classification.defaultFlags.removeAll extraFlags <+:
    c.flags.toList
  styleFlag : ∀ name, c.styleOf name = .flag ↔ schema.Flags extraFlags name
  styleEnumeration : ∀ name, c.styleOf name = .enumeration ↔
    ¬schema.Flags extraFlags name ∧ schema.Enumerates name
  stylePlain : ∀ name, c.styleOf name = .plain ↔
    ¬schema.Flags extraFlags name ∧ ¬schema.Enumerates name

/-! ### Root arguments -/

theorem mem_rootArguments {argument : ArgumentDef} :
    argument ∈ schema.rootArguments ↔ schema.HasRootArgument argument := by
  simp only [rootArguments, HasRootArgument, List.mem_flatMap, Prod.exists, mem_rootTypes,
    rootType?_eq_some_iff]
  constructor
  · rintro ⟨operation, type, ⟨start, hstart, hget, hkind⟩, hfield⟩
    exact ⟨operation, start, hstart, type, hget, hkind, hfield⟩
  · rintro ⟨operation, start, hstart, type, hget, hkind, hfield⟩
    exact ⟨operation, type, ⟨start, hstart, hget, hkind⟩, hfield⟩

theorem mem_argumentNames {p : String → Bool} {q : String → Prop}
    (hpq : ∀ target, p target = true ↔ q target) :
    name ∈ schema.argumentNames p ↔ schema.NamesArgumentOf q name := by
  simp only [argumentNames, NamesArgumentOf, List.mem_map, List.mem_filter, mem_rootArguments,
    TypeRef.wraps_iff, hpq]
  constructor
  · rintro ⟨argument, ⟨hargument, htarget⟩, hname⟩
    exact ⟨argument, hargument, hname, _, rfl, htarget⟩
  · rintro ⟨argument, hargument, hname, _, rfl, htarget⟩
    exact ⟨argument, ⟨hargument, htarget⟩, hname⟩

theorem isCustomScalar_iff {target : String} :
    schema.isCustomScalar target = true ↔ schema.HasCustomScalar target := by
  simp [isCustomScalar, HasCustomScalar, isBuiltinScalar]

theorem isEnumType_iff {target : String} :
    schema.isEnumType target = true ↔ schema.HasEnum target := by
  simp [isEnumType, HasEnum]

theorem mem_enumTypeNames : name ∈ schema.enumTypeNames ↔ schema.NamesEnum name := by
  simp only [enumTypeNames, NamesEnum, List.mem_map, List.mem_filter, Bool.and_eq_true,
    decide_eq_true_eq, Bool.not_eq_true', and_assoc]

/-! ### The classification -/

theorem isFlag_iff : (schema.classify extraFlags).isFlag name = true ↔
    schema.Flags extraFlags name := by
  rw [isFlag_classify, Flags, mem_argumentNames fun _ => isCustomScalar_iff]

theorem isEnum_iff : (schema.classify extraFlags).isEnum name = true ↔
    schema.Enumerates name := by
  rw [isEnum_classify, Enumerates, mem_enumTypeNames, mem_argumentNames fun _ => isEnumType_iff]

theorem flags_prefix (schema : Schema) (extraFlags : List String) :
    extraFlags.eraseDups ++ Classification.defaultFlags.removeAll extraFlags <+:
      (schema.classify extraFlags).flags.toList := by
  have hdefault : (Classification.defaultFlags.removeAll extraFlags).Nodup :=
    List.Nodup.sublist List.filter_sublist (by decide)
  rw [classify, OrdSet.toList_ofList, List.eraseDups_append, List.eraseDups_append,
    eraseDups_of_nodup hdefault]
  exact List.prefix_append _ _

/-- The classification of a schema is the one that the predicates describe, for every schema and
every list of additional flags, repeated ones included. -/
theorem classifies_classify (schema : Schema) (extraFlags : List String) :
    schema.Classifies extraFlags (schema.classify extraFlags) where
  flag _ := isFlag_iff
  enumeration _ := isEnum_iff
  flagsOnce := OrdSet.count_toList _
  enumsOnce := OrdSet.count_toList _
  order := flags_prefix schema extraFlags
  styleFlag name := by rw [Classification.styleOf_eq_flag_iff, isFlag_iff]
  styleEnumeration name := by
    rw [Classification.styleOf_eq_enumeration_iff, isFlag_iff, isEnum_iff]
  stylePlain name := by
    rw [Classification.styleOf_eq_plain_iff, isFlag_iff, isEnum_iff, not_or]

end Schema

end SelectionCompiler
