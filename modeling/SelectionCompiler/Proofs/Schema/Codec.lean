import SelectionCompiler.Proofs.Json.Decode
import SelectionCompiler.Proofs.Json.Faithful
import SelectionCompiler.Schema.Codec

/-!
The JSON form of a schema gives back the schema: as a value always, and as a compact text as
long as it is nested no deeper than a text may be.
-/

namespace SelectionCompiler

open Json

/-! ### Maps -/

namespace OrdMap

variable {α : Type} {encode : α → Json} {decode : Json → Option α}

theorem ofJson?_toJson {m : OrdMap α} (h : ∀ a ∈ m.values, decode (encode a) = some a) :
    ofJson? decode (m.toJson encode) = some m := by
  have hmembers : (m.toList.map fun e => (e.1, encode e.2)).mapM
      (fun v => (decode v.2).map fun a => (v.1, a)) = some m.toList :=
    Json.mapM_map_eq_some fun e he => by rw [h e.2 (List.mem_map_of_mem he), Option.map_some]
  have hlist : ofList m.toList = m := ext (toList_ofList m.nodup_keys)
  simp only [ofJson?, toJson, Json.toMembers?, Option.bind_eq_bind, Option.bind_some, hmembers]
  exact congrArg some hlist

theorem faithful_toJson {m : OrdMap α} (h : ∀ a ∈ m.values, (encode a).Faithful) :
    (m.toJson encode).Faithful := by
  refine .obj ?_ ?_
  · simpa [Function.comp_def] using m.nodup_keys
  · intro member hmember
    obtain ⟨e, he, rfl⟩ := List.mem_map.mp hmember
    exact h e.2 (List.mem_map_of_mem he)

theorem nesting_toJson_le {m : OrdMap α} {n : Nat} (h : ∀ a ∈ m.values, (encode a).nesting ≤ n) :
    (m.toJson encode).nesting ≤ n + 1 := by
  apply Json.nesting_obj_le
  intro member hmember
  obtain ⟨e, he, rfl⟩ := List.mem_map.mp hmember
  exact h e.2 (List.mem_map_of_mem he)

end OrdMap

/-! ### Parts of a schema -/

namespace TypeRef

theorem ofJson?_toJson (t : TypeRef) : ofJson? t.toJson = some t := by
  induction t with
  | named name => rfl
  | list item ih => simp [toJson, ofJson?, ih]
  | nonNull inner ih => simp [toJson, ofJson?, ih]

theorem toJson_ne_null (t : TypeRef) : t.toJson ≠ .null := by
  cases t <;> exact nofun

theorem faithful_toJson (t : TypeRef) : t.toJson.Faithful := by
  induction t with
  | named name => exact .obj (by simp) (by simpa using .str name)
  | list item ih => exact .obj (by simp) (by simpa using ih)
  | nonNull inner ih => exact .obj (by simp) (by simpa using ih)

end TypeRef

namespace ArgumentDef

theorem ofJson?_toJson (a : ArgumentDef) : ofJson? a.toJson = some a := by
  simp [toJson, ofJson?, required, toString?, TypeRef.ofJson?_toJson]

theorem faithful_toJson (a : ArgumentDef) : a.toJson.Faithful :=
  .obj (by simp) (by simp [Faithful.str, TypeRef.faithful_toJson])

end ArgumentDef

namespace FieldDef

/-- Arguments are left out when there are none, and then read as none. -/
theorem defaulted_arguments (f : FieldDef) :
    f.toJson.defaulted "arguments" [] (toList? ArgumentDef.ofJson?) = some f.arguments := by
  by_cases hempty : f.arguments = []
  · rw [defaulted_of_absent (by simp [toJson, hempty]), hempty]
  · have hmember : f.toJson.member? "arguments" = some (.arr (f.arguments.map (·.toJson))) := by
      simp [toJson, hempty]
    rw [defaulted_of_member? hmember, toList?_map fun a _ => a.ofJson?_toJson]

theorem ofJson?_toJson (f : FieldDef) : ofJson? f.toJson = some f := by
  have hname : f.toJson.member? "name" = some (.str f.name) := by simp [toJson]
  have htype : f.toJson.optional "ty" TypeRef.ofJson? = some f.type :=
    optional_of_member? (by simp [toJson]) (fun t _ => t.ofJson?_toJson) TypeRef.toJson_ne_null
  simp only [ofJson?, required_of_member? hname, toString?, htype, f.defaulted_arguments,
    Option.bind_eq_bind, Option.bind_some]
  rfl

theorem faithful_toJson (f : FieldDef) : f.toJson.Faithful := by
  have htype : ((f.type.map TypeRef.toJson).getD .null).Faithful := by
    cases f.type with
    | none => exact .null
    | some t => exact t.faithful_toJson
  have harguments : (arr (f.arguments.map (·.toJson))).Faithful := by
    refine .arr fun v hv => ?_
    obtain ⟨a, -, rfl⟩ := List.mem_map.mp hv
    exact a.faithful_toJson
  rw [toJson]
  split
  · exact .obj (by simp) (by simp [Faithful.str, htype])
  · exact .obj (by simp) (by simp [Faithful.str, htype, harguments])

end FieldDef

namespace TypeKind

theorem ofJson?_text (kind : TypeKind) : ofJson? (.str kind.text) = some kind := by
  cases kind <;> rfl

end TypeKind

namespace TypeDef

theorem ofJson?_toJson (t : TypeDef) : ofJson? t.toJson = some t := by
  have hfields : OrdMap.ofJson? FieldDef.ofJson? (t.fields.toJson FieldDef.toJson) =
      some t.fields := OrdMap.ofJson?_toJson fun f _ => f.ofJson?_toJson
  simp [toJson, ofJson?, required, defaulted, toString?, TypeKind.ofJson?_text, hfields]

theorem faithful_toJson (t : TypeDef) : t.toJson.Faithful := by
  have hfields : (t.fields.toJson FieldDef.toJson).Faithful :=
    OrdMap.faithful_toJson fun f _ => f.faithful_toJson
  exact .obj (by simp) (by simp [Faithful.str, hfields])

end TypeDef

namespace Schema

theorem ofJson?_toJson (s : Schema) : ofJson? s.toJson = some s := by
  have htypes : OrdMap.ofJson? TypeDef.ofJson? (s.types.toJson TypeDef.toJson) = some s.types :=
    OrdMap.ofJson?_toJson fun t _ => t.ofJson?_toJson
  have hquery : s.toJson.optional "query_type" toString? = some s.queryType :=
    optional_ofOptionString (by simp [toJson])
  have hmutation : s.toJson.optional "mutation_type" toString? = some s.mutationType :=
    optional_ofOptionString (by simp [toJson])
  have hmember : s.toJson.member? "types" = some (s.types.toJson TypeDef.toJson) := by
    simp [toJson]
  simp only [ofJson?, required_of_member? hmember, htypes, hquery, hmutation, Option.bind_eq_bind,
    Option.bind_some]
  rfl

theorem faithful_toJson (s : Schema) : s.toJson.Faithful := by
  have htypes : (s.types.toJson TypeDef.toJson).Faithful :=
    OrdMap.faithful_toJson fun t _ => t.faithful_toJson
  exact .obj (by simp) (by simp [Faithful.ofOptionString, htypes])

/-- The JSON form of a schema is read as that schema, and so is its compact text unless it is
nested more deeply than a text may be. -/
theorem toJson_lossless (s : Schema) :
    ofJson? s.toJson = some s ∧
      (s.toJson.nesting ≤ maxNesting → (parse? s.toJson.compact).bind ofJson? = some s) := by
  refine ⟨s.ofJson?_toJson, fun hnesting => ?_⟩
  rw [s.faithful_toJson.parse?_compact hnesting, Option.bind_some, s.ofJson?_toJson]

theorem toJson_lossless_sample :
    let s : Schema := ⟨.ofList [
      ("Root", ⟨"Query", .composite, .ofList [
        ("alias", ⟨"\"é\n", none, [⟨"ids", .nonNull (.list (.nonNull (.named "ID")))⟩]⟩),
        ("bare", ⟨"bare", some (.list (.named "Missing")), []⟩)]⟩),
      ("ID", .bare "ID" .scalar)], some "Root", none⟩
    s.toJson.nesting ≤ maxNesting ∧ ofJson? s.toJson = some s ∧
      (parse? s.toJson.compact).bind ofJson? = some s :=
  have hnesting := by decide
  ⟨hnesting, (toJson_lossless _).1, (toJson_lossless _).2 hnesting⟩

end Schema

end SelectionCompiler
