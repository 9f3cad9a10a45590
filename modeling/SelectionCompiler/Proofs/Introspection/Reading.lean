import SelectionCompiler.Proofs.Introspection.Reference

/-!
What is read off a description. A list is read item by item, the form of a reference is read
as that reference, and so the types read are the types described.
-/

namespace SelectionCompiler

namespace Introspection

/-! ### Lists -/

section

variable {α β γ : Type} {decode : Json → Option α} {stands : β → Json → Prop} {read : α → γ}
  {target : β → γ} {xs : List β} {items : List Json}

/-- Items that are read one by one are read as a list. -/
theorem exists_mapM (h : List.Forall₂ stands xs items)
    (hitem : ∀ {x item}, stands x item → ∃ y, decode item = some y ∧ read y = target x) :
    ∃ ys, items.mapM decode = some ys ∧ ys.map read = xs.map target := by
  induction h with
  | nil => exact ⟨[], rfl, rfl⟩
  | cons hstands _ ih =>
      obtain ⟨y, hy, hread⟩ := hitem hstands
      obtain ⟨ys, hys, hreads⟩ := ih
      exact ⟨y :: ys, by simp [List.mapM_cons, hy, hys], by simp [hread, hreads]⟩

theorem filterMap_eq_of_map {f : α → Option γ} {ys : List α}
    (h : ys.map f = xs.map fun x => some (target x)) : ys.filterMap f = xs.map target := by
  have hmap : ys.filterMap f = (ys.map f).filterMap id := by simp [List.filterMap_map]
  rw [hmap, h, List.filterMap_map]
  simp

end

/-! ### Arguments, fields and types -/

/-- The type under a key of an argument or a field. -/
theorem exists_optional_type {ref : TypeRef} {v w : Json} (hholds : v.Holds "type" w)
    (h : Refers ref w) :
    ∃ t, optional v "type" typeReference? = some (some t) ∧ t.toTypeRef? = some ref := by
  obtain ⟨t, hspells, hdenotes⟩ := h.exists_spells
  refine ⟨t, ?_, hdenotes.toTypeRef?_eq⟩
  rw [optional_of_holds hholds hspells.ne_null, typeReference?_of_spells hspells, Option.map_some]

theorem exists_inputValue {a : ArgumentDef} {v : Json} (h : DescribesArgument a v) :
    ∃ y, inputValue? v = some y ∧ y.toArgumentDef? = some a := by
  obtain ⟨hname, w, hholds, href⟩ := h
  obtain ⟨t, ht, htype⟩ := exists_optional_type hholds href
  refine ⟨⟨a.name, some t⟩, ?_, ?_⟩
  · rw [inputValue?, required_of_holds hname, ht]
    rfl
  · simp [InputValue.toArgumentDef?, htype]

theorem exists_field {f : Sdl.Field} {v : Json} (h : DescribesField f v) :
    ∃ y, field? v = some y ∧ y.toFieldDef = f.toFieldDef := by
  obtain ⟨hname, hargs, w, hholds, href⟩ := h
  obtain ⟨t, ht, htype⟩ := exists_optional_type hholds href
  rcases hargs with ⟨items, hitems, hargs⟩ | ⟨hnil, hlacks⟩
  · obtain ⟨ys, hys, hread⟩ := exists_mapM hargs exists_inputValue
    refine ⟨⟨f.name, ys, some t⟩, ?_, ?_⟩
    · rw [field?, member?_of_holds hitems, required_of_holds hname, ht]
      simp [Json.toList?, Json.toItems?, Json.toString?, hys]
    · have harguments : ys.filterMap (·.toArgumentDef?) = f.arguments.map id :=
        filterMap_eq_of_map hread
      simp [Field.toFieldDef, Sdl.Field.toFieldDef, htype, harguments]
  · refine ⟨⟨f.name, [], some t⟩, ?_, ?_⟩
    · rw [field?, member?_of_lacks hlacks, required_of_holds hname, ht]
      simp [Json.toString?]
    · simp [Field.toFieldDef, Sdl.Field.toFieldDef, htype, hnil]

theorem typeKind?_kindText (body : Sdl.Body) : typeKind? (kindText body) = some body.kind := by
  cases body <;> rfl

/-- The fields read off a description are those of the body. -/
theorem exists_fields {body : Sdl.Body} {v : Json} (h : DescribesFields v body) :
    ∃ ys, optional v "fields" (Json.toList? field?) = some ys ∧
      (ys.getD []).map Field.toFieldDef = body.fields := by
  have hlists {fields : List Sdl.Field} (h : v.Lists "fields" DescribesField fields) :
      ∃ ys, optional v "fields" (Json.toList? field?) = some ys ∧
        (ys.getD []).map Field.toFieldDef = fields.map Sdl.Field.toFieldDef := by
    obtain ⟨items, hitems, hfields⟩ := h
    obtain ⟨ys, hys, hread⟩ := exists_mapM hfields exists_field
    refine ⟨some ys, ?_, hread⟩
    rw [optional_of_holds hitems (by simp)]
    simp [Json.toList?, Json.toItems?, hys]
  cases body with
  | object fields => exact hlists h
  | interface fields => exact hlists h
  | union => exact ⟨none, optional_of_isBlank h, rfl⟩
  | scalar => exact ⟨none, optional_of_isBlank h, rfl⟩
  | enumeration => exact ⟨none, optional_of_isBlank h, rfl⟩
  | input => exact ⟨none, optional_of_isBlank h, rfl⟩

theorem exists_fullType {type : String × Sdl.Body} {v : Json} (h : DescribesType type v) :
    ∃ y, fullType? v = some y ∧ y.toTypeDef? = some (type.2.toTypeDef type.1) := by
  obtain ⟨hkind, hname, hfields⟩ := h
  obtain ⟨ys, hys, hread⟩ := exists_fields hfields
  refine ⟨⟨kindText type.2, some type.1, ys⟩, ?_, ?_⟩
  · rw [fullType?, required_of_holds hkind, optional_of_holds hname (by simp), hys]
    rfl
  · simp [FullType.toTypeDef?, typeKind?_kindText, hread, Sdl.Body.toTypeDef]

/-! ### Whole results -/

theorem optional_of_describesRoot {v : Json} {key : String} {root : Option String}
    (h : DescribesRoot v key root) : optional v key typeName? = some root := by
  cases root with
  | none => exact optional_of_isBlank h
  | some name =>
      obtain ⟨w, hholds, hname⟩ := h
      have hw : w ≠ .null := by
        rintro rfl
        obtain ⟨_, hobj, _⟩ := hname
        cases hobj
      rw [optional_of_holds hholds hw, typeName?, required_of_holds hname]
      rfl

variable {types : List (String × Sdl.Body)} {roots : Sdl.Roots} {v : Json}

theorem exists_schema (h : DescribesSchema types roots v) :
    ∃ fullTypes, schema? v = some ⟨roots.query, roots.mutation, fullTypes⟩ ∧
      fullTypes.filterMap (·.toTypeDef?) = types.map fun type => type.2.toTypeDef type.1 := by
  obtain ⟨hquery, hmutation, items, hitems, htypes⟩ := h
  obtain ⟨ys, hys, hread⟩ := exists_mapM htypes exists_fullType
  refine ⟨ys, ?_, filterMap_eq_of_map hread⟩
  rw [schema?, optional_of_describesRoot hquery, optional_of_describesRoot hmutation,
    required_of_holds hitems]
  simp [Json.toList?, Json.toItems?, hys]

/-- The schema of a described result has the types described, one after the other, and
names the operation types described. -/
theorem exists_document (h : Describes types roots v) :
    ∃ document, Document.ofJson? v = some document ∧
      Schema.ofIntrospectionDocument document =
        ((Schema.builtin.addTypes (types.map fun type => type.2.toTypeDef type.1)).setQueryType
          roots.query).setMutationType roots.mutation := by
  rcases h with ⟨w, hdata, s, hs, hschema⟩ | ⟨hdata, s, hs, hschema⟩
  · obtain ⟨fullTypes, hread, htypes⟩ := exists_schema hschema
    refine ⟨⟨roots.query, roots.mutation, fullTypes⟩, ?_, ?_⟩
    · rw [Document.ofJson?, required_of_holds hdata, required_of_holds hs, hread]
    · rw [Schema.ofIntrospectionDocument, htypes]
  · obtain ⟨fullTypes, hread, htypes⟩ := exists_schema hschema
    refine ⟨⟨roots.query, roots.mutation, fullTypes⟩, ?_, ?_⟩
    · rw [Document.ofJson?, required, member?_of_lacks hdata]
      simp [required_of_holds hs, hread]
    · rw [Schema.ofIntrospectionDocument, htypes]

end Introspection

end SelectionCompiler
