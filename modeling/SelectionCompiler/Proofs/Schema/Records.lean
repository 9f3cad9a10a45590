import SelectionCompiler.Proofs.Graph.TypeGraph

/-!
Schemas as records of the types added to them. Adding types one after the other leaves each
type under its own name, the names in the order in which they were first added, and under each
of them the type that was added last. Nothing else about the order of additions can be seen.
-/

namespace SelectionCompiler

namespace TypeDef

/-- Each field stands under its own name. -/
def FieldsKeyed (type : TypeDef) : Prop :=
  ∀ entry ∈ type.fields.toList, entry.2.name = entry.1

theorem bare_fieldsKeyed (name : String) (kind : TypeKind) : (bare name kind).FieldsKeyed := nofun

theorem addFields_fieldsKeyed {type : TypeDef} (h : type.FieldsKeyed) (fields : List FieldDef) :
    (type.addFields fields).FieldsKeyed := by
  induction fields generalizing type with
  | nil => exact h
  | cons field rest ih => exact ih (OrdMap.named_insert h field)

end TypeDef

namespace Schema

variable {schema : Schema} {added : List TypeDef} {name : String}

/-- The types of the schema that holds the built-in scalars alone. -/
def builtinTypes : List TypeDef := builtinScalars.map (TypeDef.bare · .scalar)

/-- The type of a name that was added last. -/
def latest? (added : List TypeDef) (name : String) : Option TypeDef :=
  added.findRev? fun type => type.name = name

/-- The schema has the types that adding these leads to. -/
def Records (schema : Schema) (added : List TypeDef) : Prop :=
  schema.types = (empty.addTypes added).types

/-! ### Adding types -/

theorem addTypes_append (schema : Schema) (types more : List TypeDef) :
    schema.addTypes (types ++ more) = (schema.addTypes types).addTypes more :=
  List.foldl_append

theorem addTypes_typesKeyed (h : schema.TypesKeyed) (types : List TypeDef) :
    (schema.addTypes types).TypesKeyed := by
  induction types generalizing schema with
  | nil => exact h
  | cons type rest ih => exact ih (addType_typesKeyed h type)

theorem keySet_addTypes (schema : Schema) (types : List TypeDef) :
    (schema.addTypes types).types.keySet =
      schema.types.keySet.insertAll (types.map TypeDef.name) := by
  induction types generalizing schema with
  | nil => rfl
  | cons type rest ih =>
      change ((schema.addType type).addTypes rest).types.keySet = _
      rw [ih, addType, OrdMap.keySet_insert]
      rfl

theorem get?_addTypes (schema : Schema) (types : List TypeDef) (name : String) :
    (schema.addTypes types).get? name = (latest? types name).or (schema.get? name) := by
  induction types generalizing schema with
  | nil => rfl
  | cons type rest ih =>
      change ((schema.addType type).addTypes rest).get? name = _
      rw [ih, get?, addType, OrdMap.get?_insert, latest?, latest?, List.findRev?]
      -- the first type counts if it has the name and no later one has
      cases rest.findRev? fun type => type.name = name with
      | some later => rfl
      | none =>
          by_cases hname : type.name = name
          · simp [hname]
          · simp [hname, Ne.symm hname, get?]

theorem mem_of_latest? {type : TypeDef} (h : latest? added name = some type) : type ∈ added := by
  rw [latest?, List.findRev?_eq_find?_reverse] at h
  exact List.mem_reverse.mp (List.mem_of_find?_eq_some h)

theorem name_of_latest? {type : TypeDef} (h : latest? added name = some type) :
    type.name = name := by
  rw [latest?, List.findRev?_eq_find?_reverse] at h
  simpa using List.find?_some h

theorem latest?_eq_none_iff : latest? added name = none ↔ name ∉ added.map TypeDef.name := by
  simp [latest?, List.findRev?_eq_find?_reverse]

theorem latest?_of_nodup (honce : (added.map TypeDef.name).Nodup) {type : TypeDef}
    (h : type ∈ added) : latest? added type.name = some type := by
  cases hlatest : latest? added type.name with
  | none => exact absurd (List.mem_map_of_mem h) (latest?_eq_none_iff.mp hlatest)
  | some other =>
      have heq : other = type := List.inj_on_of_nodup_map honce (mem_of_latest? hlatest) h
        (name_of_latest? hlatest)
      rw [heq]

theorem latest?_map {f : TypeDef → TypeDef} (h : ∀ type, (f type).name = type.name)
    (added : List TypeDef) (name : String) :
    latest? (added.map f) name = (latest? added name).map f := by
  have hname : (fun type => decide (type.name = name)) ∘ f =
      fun type => decide (type.name = name) := by
    funext type
    rw [Function.comp_apply, h]
  rw [latest?, latest?, List.findRev?_eq_find?_reverse, List.findRev?_eq_find?_reverse,
    ← List.map_reverse, List.find?_map, hname]

/-! ### What a record tells -/

namespace Records

theorem typesKeyed (h : schema.Records added) : schema.TypesKeyed := by
  have hempty : empty.TypesKeyed := nofun
  unfold TypesKeyed
  rw [h]
  exact addTypes_typesKeyed hempty added

theorem keys_eq (h : schema.Records added) :
    schema.types.keys = (added.map TypeDef.name).eraseDups := by
  have hkeys : schema.types.keySet = OrdSet.ofList (added.map TypeDef.name) := by
    rw [h]
    exact keySet_addTypes empty added
  exact (congrArg OrdSet.toList hkeys).trans (OrdSet.toList_ofList _)

theorem get?_eq (h : schema.Records added) (name : String) :
    schema.get? name = latest? added name := by
  rw [get?, h, ← get?, get?_addTypes]
  exact Option.or_none

theorem mem_of_mem_values (h : schema.Records added) {type : TypeDef}
    (htype : type ∈ schema.types.values) : type ∈ added := by
  obtain ⟨name, hget⟩ := OrdMap.mem_values_iff.mp htype
  exact mem_of_latest? ((h.get?_eq name).symm.trans hget)

/-- A record is known by the names and by what is found under them. -/
theorem of_get?_eq (hkeys : schema.types.keys = (added.map TypeDef.name).eraseDups)
    (hget : ∀ name, schema.get? name = latest? added name) : schema.Records added := by
  have hadded : (empty.addTypes added).Records added := rfl
  refine OrdMap.eq_of_get?_eq (hkeys.trans hadded.keys_eq.symm) fun name => ?_
  exact (hget name).trans (hadded.get?_eq name).symm

theorem addType (h : schema.Records added) (type : TypeDef) :
    (schema.addType type).Records (added ++ [type]) := by
  rw [Records, addTypes_append]
  change schema.types.insert type.name type = (empty.addTypes added).types.insert type.name type
  rw [h]

end Records

end Schema

end SelectionCompiler
