import SelectionCompiler.Schema.OfDocument
import SelectionCompiler.Proofs.Schema.Records

/-!
Extensions of types. In a document that defines each type once, the fields of the extensions of
a type could as well stand at the end of its definition. Main statement: the schema of a document
is the schema of the document with every extension merged into the definition that it extends,
so it does not matter where extensions stand, as long as those of one type keep their order.

Both passes over a document are told apart by the name that is looked up: definitions settle
what stands under a name and where, and extensions add fields to what stands there already. A
schema is known once its names, in order, and what stands under each of them are known.
-/

namespace SelectionCompiler

namespace TypeDef

theorem addFields_append (type : TypeDef) (fields more : List FieldDef) :
    (type.addFields fields).addFields more = type.addFields (fields ++ more) :=
  List.foldl_append.symm

theorem name_addFields (type : TypeDef) (fields : List FieldDef) :
    (type.addFields fields).name = type.name := by
  induction fields generalizing type with
  | nil => rfl
  | cons field rest ih => exact ih (type.addField field)

end TypeDef

/-! ### Documents without extensions -/

namespace Sdl

/-- The fields that a body lists; only objects and interfaces list any. -/
def Body.listed : Body → List Field
  | .object fields | .interface fields => fields
  | _ => []

/-- The body with more fields at the end of its list, if it has one. -/
def Body.listing (more : List Field) : Body → Body
  | .object fields => .object (fields ++ more)
  | .interface fields => .interface (fields ++ more)
  | body => body

namespace Definition

/-- The name of the type that is defined. -/
def typeName? : Definition → Option String
  | .type name _ => some name
  | _ => none

/-- The type that is defined. -/
def type? : Definition → Option TypeDef
  | .type name body => some (body.toTypeDef name)
  | _ => none

/-- The name of the type that is extended. -/
def extendedName? : Definition → Option String
  | .extension name _ => some name
  | _ => none

/-- The fields that an extension lists. -/
def extendedFields : Definition → List Field
  | .extension _ body => body.listed
  | _ => []

/-- The definition of a type with more fields for the name that it defines. -/
def listing (more : String → List Field) : Definition → Definition
  | .type name body => .type name (body.listing (more name))
  | definition => definition

end Definition

namespace Document

/-- The names of the types that are defined, in order. -/
def typeNames (d : Document) : List String := d.filterMap Definition.typeName?

/-- The types that are defined, in order. -/
def definedTypes (d : Document) : List TypeDef := d.filterMap Definition.type?

/-- All but the extensions, in order. -/
def definitions (d : Document) : Document := d.filter (·.extendedName?.isNone)

/-- The extensions of one type, in order. -/
def extensionsOf (d : Document) (name : String) : Document :=
  d.filter (·.extendedName? = some name)

/-- The fields that extensions give to one type, in order. -/
def extensionFields (d : Document) (name : String) : List Field :=
  (d.extensionsOf name).flatMap Definition.extendedFields

/-- The document without extensions, their fields being at the end of the definitions that they
extend. -/
def merged (d : Document) : Document := d.definitions.map (Definition.listing d.extensionFields)

/-- Each type is defined once, and each extension is one of an object or an interface by an
object or an interface, or else of a type that is neither defined nor built in. -/
structure Extensible (d : Document) : Prop where
  once : d.typeNames.Nodup
  extension : ∀ name body, .extension name body ∈ d →
    (name ∉ d.typeNames ∧ isBuiltinScalar name = false) ∨
      body.extends? = true ∧ name ∈ d.typeNames ∧
        ∀ defined, .type name defined ∈ d → defined.extends? = true

/-- The same definitions in the same order, and for each type the same extensions in the same
order, wherever these stand between the others. -/
structure Rearranges (d e : Document) : Prop where
  definitions_eq : d.definitions = e.definitions
  extensionsOf_eq : ∀ name, d.extensionsOf name = e.extensionsOf name

variable {d e : Document} {name : String} {body : Body}

theorem mem_typeNames : name ∈ d.typeNames ↔ ∃ body, .type name body ∈ d := by
  simp only [typeNames, List.mem_filterMap]
  constructor
  · rintro ⟨definition, hmem, hname⟩
    cases definition with
    | type _ body => exact ⟨body, Option.some.inj hname ▸ hmem⟩
    | roots _ | extension _ _ | directive => cases hname
  · rintro ⟨body, hmem⟩
    exact ⟨_, hmem, rfl⟩

theorem typeNames_merged (d : Document) : d.merged.typeNames = d.typeNames := by
  rw [merged, typeNames, List.filterMap_map, definitions, List.filterMap_filter]
  refine List.filterMap_congr fun definition _ => ?_
  cases definition <;> rfl

theorem type_mem_merged (h : .type name body ∈ d) :
    .type name (body.listing (d.extensionFields name)) ∈ d.merged :=
  List.mem_map.mpr ⟨_, List.mem_filter.mpr ⟨h, rfl⟩, rfl⟩

theorem extensionFields_cons (definition : Definition) (d : Document) (name : String) :
    extensionFields (definition :: d) name =
      (if definition.extendedName? = some name then definition.extendedFields else []) ++
        extensionFields d name := by
  rw [extensionFields, extensionsOf, List.filter_cons]
  by_cases hname : definition.extendedName? = some name <;>
    simp [hname, extensionFields, extensionsOf]

/-- A type that no extension is about has no fields from extensions. -/
theorem extensionFields_eq_nil (h : ∀ body, .extension name body ∉ d) :
    d.extensionFields name = [] := by
  have hnone : d.extensionsOf name = [] := by
    refine List.filter_eq_nil_iff.mpr fun definition hmem hname => ?_
    cases definition with
    | extension extended body =>
        obtain rfl : extended = name := by simpa [Definition.extendedName?] using hname
        exact h body hmem
    | roots _ | type _ _ | directive => simp [Definition.extendedName?] at hname
  rw [extensionFields, hnone, List.flatMap_nil]

theorem extensionFields_merged (d : Document) (name : String) :
    d.merged.extensionFields name = [] := by
  refine extensionFields_eq_nil fun body hmem => ?_
  obtain ⟨definition, hdefinition, heq⟩ := List.mem_map.mp hmem
  cases definition with
  | extension _ _ => cases (List.mem_filter.mp hdefinition).2
  | roots _ | type _ _ | directive => cases heq

namespace Rearranges

/-- The merged document is made of the definitions and of the extensions of each type. -/
theorem merged_eq (h : d.Rearranges e) : d.merged = e.merged := by
  have hfields : d.extensionFields = e.extensionFields := by
    funext name
    rw [extensionFields, extensionFields, h.extensionsOf_eq]
  rw [merged, merged, h.definitions_eq, hfields]

theorem mem_type_iff (h : d.Rearranges e) : .type name body ∈ d ↔ .type name body ∈ e := by
  have hmem (d : Document) : .type name body ∈ d.definitions ↔ .type name body ∈ d := by
    simp [definitions, Definition.extendedName?]
  rw [← hmem, h.definitions_eq, hmem]

theorem mem_extension_iff (h : d.Rearranges e) :
    .extension name body ∈ d ↔ .extension name body ∈ e := by
  have hmem (d : Document) : .extension name body ∈ d.extensionsOf name ↔
      .extension name body ∈ d := by
    simp [extensionsOf, Definition.extendedName?]
  rw [← hmem, h.extensionsOf_eq, hmem]

theorem typeNames_eq (h : d.Rearranges e) : d.typeNames = e.typeNames := by
  rw [← typeNames_merged, h.merged_eq, typeNames_merged]

theorem extensible (h : d.Rearranges e) (hd : d.Extensible) : e.Extensible where
  once := h.typeNames_eq ▸ hd.once
  extension name body hbody := by
    rw [← h.typeNames_eq]
    refine (hd.extension name body (h.mem_extension_iff.mpr hbody)).imp_right ?_
    rintro ⟨hextends, hname, hdefined⟩
    exact ⟨hextends, hname, fun defined hmem => hdefined defined (h.mem_type_iff.mpr hmem)⟩

end Rearranges

end Document

end Sdl

/-! ### The two passes over a document -/

namespace Schema

open Sdl

variable {schema : Schema} {d e : Document} {name other : String} {body : Body}

theorem name_toTypeDef (name : String) (body : Body) : (body.toTypeDef name).name = name :=
  TypeDef.name_addFields _ _

/-- Fields at the end of a definition are added after those of the definition. -/
theorem toTypeDef_listing (hextends : body.extends? = true) (more : List Field) :
    (body.listing more).toTypeDef name =
      (body.toTypeDef name).addFields (more.map Field.toFieldDef) := by
  cases body with
  | object fields | interface fields =>
      rw [Body.toTypeDef, Body.toTypeDef, TypeDef.addFields_append]
      simp [Body.listing, Body.fields, Body.kind]
  | scalar | union | enumeration | input => cases hextends

theorem map_listed (body : Body) : body.listed.map Field.toFieldDef = body.fields := by
  cases body <;> rfl

theorem types_extend (h : schema.TypesKeyed) (name : String) (body : Body) :
    (schema.extend (.extension name body)).types =
      schema.types.modify name (·.addFields body.fields) := by
  by_cases hextends : body.extends? = true
  · rw [extend, OrdMap.modify, ← get?]
    cases hget : schema.get? name with
    | none => rfl
    | some type =>
        simp only [hextends, if_true, addType, TypeDef.name_addFields, name_of_get? h hget]
  · -- a body that lists no fields leaves every type as it is
    have hfields : body.fields = [] := by
      cases body with
      | object _ | interface _ => exact absurd rfl hextends
      | scalar | union | enumeration | input => rfl
    have hid : (fun type : TypeDef => type.addFields body.fields) = id := by
      rw [hfields]
      rfl
    rw [hid, OrdMap.modify_id, extend]
    simp only [hextends]
    split <;> rfl

theorem get?_extend (h : schema.TypesKeyed) (extended : String) (body : Body) (name : String) :
    (schema.extend (.extension extended body)).get? name =
      if name = extended then (schema.get? name).map (·.addFields body.fields)
      else schema.get? name := by
  rw [get?, types_extend h, OrdMap.get?_modify]
  rfl

theorem extend_typesKeyed (h : schema.TypesKeyed) (definition : Definition) :
    (schema.extend definition).TypesKeyed := by
  cases definition with
  | roots _ | type _ _ | directive => exact h
  | extension extended body =>
      rintro ⟨name, type⟩ hentry
      have hget : (schema.extend (.extension extended body)).get? name = some type :=
        OrdMap.get?_eq_some_iff.mpr hentry
      rw [get?_extend h] at hget
      split at hget
      · obtain ⟨before, hbefore, rfl⟩ := Option.map_eq_some_iff.mp hget
        exact (TypeDef.name_addFields _ _).trans (name_of_get? h hbefore)
      · exact name_of_get? h hget

/-- All extensions of a type together give it their fields, and no other type is changed. -/
theorem get?_foldl_extend (h : schema.TypesKeyed) (d : Document) (name : String) :
    (d.foldl extend schema).get? name =
      (schema.get? name).map (·.addFields ((d.extensionFields name).map Field.toFieldDef)) := by
  induction d generalizing schema with
  | nil => simp [Document.extensionFields, Document.extensionsOf, TypeDef.addFields]
  | cons definition rest ih =>
      rw [List.foldl_cons, ih (extend_typesKeyed h definition)]
      cases definition with
      | roots _ | type _ _ | directive => rfl
      | extension extended body =>
          rw [get?_extend h, Document.extensionFields_cons]
          by_cases heq : extended = name
          · subst heq
            simp [Definition.extendedName?, Definition.extendedFields, map_listed,
              Function.comp_def, TypeDef.addFields_append]
          · simp [Definition.extendedName?, heq, Ne.symm heq]

theorem keys_foldl_extend (h : schema.TypesKeyed) (d : Document) :
    (d.foldl extend schema).types.keys = schema.types.keys := by
  induction d generalizing schema with
  | nil => rfl
  | cons definition rest ih =>
      rw [List.foldl_cons, ih (extend_typesKeyed h definition)]
      cases definition with
      | roots _ | type _ _ | directive => rfl
      | extension extended body => rw [types_extend h, OrdMap.keys_modify]

/-- The definitions of a document add their types one after the other. -/
theorem foldl_define (schema : Schema) (d : Document) :
    d.foldl define schema = schema.addTypes d.definedTypes := by
  rw [addTypes, Document.definedTypes, List.foldl_filterMap]
  congr 1
  funext schema definition
  cases definition <;> rfl

theorem map_name_definedTypes (d : Document) : d.definedTypes.map TypeDef.name = d.typeNames := by
  rw [Document.definedTypes, Document.typeNames, List.map_filterMap]
  refine List.filterMap_congr fun definition _ => ?_
  cases definition with
  | type name body => exact congrArg some (name_toTypeDef name body)
  | roots _ | extension _ _ | directive => rfl

theorem foldl_define_typesKeyed (h : schema.TypesKeyed) (d : Document) :
    (d.foldl define schema).TypesKeyed := by
  rw [foldl_define]
  exact addTypes_typesKeyed h d.definedTypes

/-- The place of a type is that of its first definition; the bodies have no say in it. -/
theorem keySet_foldl_define (schema : Schema) (d : Document) :
    (d.foldl define schema).types.keySet = schema.types.keySet.insertAll d.typeNames := by
  rw [foldl_define, keySet_addTypes, map_name_definedTypes]

theorem get?_foldl_define_of_notMem (schema : Schema) (h : name ∉ d.typeNames) :
    (d.foldl define schema).get? name = schema.get? name := by
  rw [← map_name_definedTypes] at h
  rw [foldl_define, get?_addTypes, latest?_eq_none_iff.mpr h, Option.none_or]

theorem get?_foldl_define (schema : Schema) (honce : d.typeNames.Nodup)
    (h : .type name body ∈ d) :
    (d.foldl define schema).get? name = some (body.toTypeDef name) := by
  have hmem : body.toTypeDef name ∈ d.definedTypes := List.mem_filterMap.mpr ⟨_, h, rfl⟩
  have hnames : (d.definedTypes.map TypeDef.name).Nodup := by rwa [map_name_definedTypes]
  have hlatest := latest?_of_nodup hnames hmem
  rw [name_toTypeDef] at hlatest
  rw [foldl_define, get?_addTypes, hlatest, Option.some_or]

/-! ### The schema of the merged document -/

theorem builtin_typesKeyed : builtin.TypesKeyed := by
  decide

theorem get?_builtin_eq_none (h : isBuiltinScalar name = false) : builtin.get? name = none := by
  have hkeys : builtin.types.keys = builtinScalars := rfl
  rw [get?, OrdMap.get?_eq_none_iff, hkeys]
  simpa [isBuiltinScalar] using h

theorem declaredRoots?_merged (d : Document) : declaredRoots? d.merged = declaredRoots? d := by
  rw [declaredRoots?, declaredRoots?, Document.merged, Document.definitions, List.foldl_map,
    List.foldl_filter]
  congr 1
  funext found definition
  cases definition <;> rfl

theorem ofDocument_congr (htypes : (d.foldl extend (d.foldl define builtin)).types =
      (e.foldl extend (e.foldl define builtin)).types)
    (hroots : declaredRoots? d = declaredRoots? e) : ofDocument d = ofDocument e := by
  simp only [ofDocument, customaryRoots, get?, setQueryType, setMutationType, htypes, hroots]

/-- Whatever stands under a name got its fields from its definition and its extensions. -/
theorem get?_foldl_merged (h : d.Extensible) (name : String) :
    (d.merged.foldl define builtin).get? name =
      ((d.foldl define builtin).get? name).map
        (·.addFields ((d.extensionFields name).map Field.toFieldDef)) := by
  have hid : (fun type : TypeDef => type.addFields (([] : List Field).map Field.toFieldDef)) = id :=
    rfl
  by_cases hname : name ∈ d.typeNames
  · obtain ⟨body, hbody⟩ := Document.mem_typeNames.mp hname
    have honce : d.merged.typeNames.Nodup := d.typeNames_merged ▸ h.once
    rw [get?_foldl_define _ honce (Document.type_mem_merged hbody),
      get?_foldl_define _ h.once hbody, Option.map_some]
    by_cases hextends : body.extends? = true
    · rw [toTypeDef_listing hextends]
    · -- no extension is allowed for this body
      have hfields : d.extensionFields name = [] := by
        refine Document.extensionFields_eq_nil fun extension hextension => ?_
        rcases h.extension name extension hextension with ⟨hfree, _⟩ | ⟨_, _, hdefined⟩
        · exact hfree hname
        · exact hextends (hdefined body hbody)
      have hlisting : body.listing [] = body := by
        cases body <;> simp [Body.listing]
      rw [hfields, hlisting]
      rfl
  · rw [get?_foldl_define_of_notMem _ (d.typeNames_merged.symm ▸ hname),
      get?_foldl_define_of_notMem _ hname]
    cases hbuiltin : isBuiltinScalar name with
    | false => rw [get?_builtin_eq_none hbuiltin, Option.map_none]
    | true =>
        have hfields : d.extensionFields name = [] := by
          refine Document.extensionFields_eq_nil fun extension hextension => ?_
          rcases h.extension name extension hextension with ⟨_, hfree⟩ | ⟨_, hdefined, _⟩
          · rw [hbuiltin] at hfree
            cases hfree
          · exact hname hdefined
        rw [hfields, hid, Option.map_id, id_eq]

theorem ofDocument_merged (h : d.Extensible) : ofDocument d.merged = ofDocument d := by
  have hkeyed (d : Document) := foldl_define_typesKeyed builtin_typesKeyed d
  refine ofDocument_congr (OrdMap.eq_of_get?_eq ?_ fun name => ?_) (declaredRoots?_merged d)
  · have hkeys := congrArg OrdSet.toList (keySet_foldl_define builtin d)
    rw [← Document.typeNames_merged, ← keySet_foldl_define] at hkeys
    rw [keys_foldl_extend (hkeyed d.merged), keys_foldl_extend (hkeyed d)]
    exact hkeys.symm
  · change (d.merged.foldl extend (d.merged.foldl define builtin)).get? name =
      (d.foldl extend (d.foldl define builtin)).get? name
    rw [get?_foldl_extend (hkeyed d.merged), get?_foldl_extend (hkeyed d),
      Document.extensionFields_merged, get?_foldl_merged h, Option.map_map]
    rfl

/-- The schema of a text is that of its merged document, and any text whose document has the
extensions elsewhere, those of one type in the same order, has the same schema. -/
theorem ofSdl?_eq_merged {text : String} (htext : Document.ofText? text = some d)
    (h : d.Extensible) :
    ofSdl? text = some (ofDocument d.merged) ∧
      ∀ other rearranged, Document.ofText? other = some rearranged → d.Rearranges rearranged →
        ofSdl? other = ofSdl? text := by
  have hschema : ofSdl? text = some (ofDocument d.merged) := by
    rw [ofSdl?, htext, Option.map_some, ofDocument_merged h]
  refine ⟨hschema, fun other rearranged hother hrearranges => ?_⟩
  rw [hschema, ofSdl?, hother, Option.map_some, ← ofDocument_merged (hrearranges.extensible h),
    hrearranges.merged_eq]

/-- Extensions on both sides of what they extend, one by an interface and one of a type that is
not there; a field of the definition is given once more. -/
def scattered : Document :=
  [.extension "Track" (.interface [⟨"id", [], .named "ID"⟩]),
    .type "Track" (.object [⟨"title", [], .named "Text"⟩]), .extension "Ghost" .union,
    .extension "Track" (.object [⟨"title", [], .nonNull (.named "Text")⟩])]

def scatteredText : String :=
  "extend interface Track\x7bid:ID\x7d type Track\x7btitle:Text\x7d " ++
    "extend union Ghost=Track extend type Track\x7btitle:Text!\x7d"

/-- The same document with its definition at the end, those of its extensions that are about one
type together. -/
def gathered : Document :=
  [.extension "Ghost" .union, .extension "Track" (.interface [⟨"id", [], .named "ID"⟩]),
    .extension "Track" (.object [⟨"title", [], .nonNull (.named "Text")⟩]),
    .type "Track" (.object [⟨"title", [], .named "Text"⟩])]

def gatheredText : String :=
  "extend union Ghost=Track extend interface Track\x7bid:ID\x7d " ++
    "extend type Track\x7btitle:Text!\x7d type Track\x7btitle:Text\x7d"

theorem scattered_extensible : scattered.Extensible where
  once := by decide
  extension name body h := by
    simp only [scattered, List.mem_cons, Definition.extension.injEq, List.not_mem_nil,
      reduceCtorEq, false_or, or_false] at h
    rcases h with ⟨rfl, rfl⟩ | ⟨rfl, rfl⟩ | ⟨rfl, rfl⟩
    case inr.inl => exact .inl (by decide)
    all_goals simp [scattered, Document.typeNames, Definition.typeName?, Body.extends?]

theorem scattered_rearranges_gathered : scattered.Rearranges gathered where
  definitions_eq := rfl
  extensionsOf_eq name := by
    by_cases htrack : name = "Track"
    · subst htrack
      rfl
    · simp [Document.extensionsOf, scattered, gathered, Definition.extendedName?, List.filter_cons,
        Ne.symm htrack]

theorem ofSdl?_eq_merged_scattered :
    (Document.ofText? scatteredText = some scattered ∧ scattered.Extensible ∧
      Document.ofText? gatheredText = some gathered ∧ scattered.Rearranges gathered) ∧
    (ofSdl? scatteredText = some (ofDocument scattered.merged) ∧
      ofSdl? gatheredText = ofSdl? scatteredText) := by
  have htext : Document.ofText? scatteredText = some scattered := by
    decide +kernel
  have hother : Document.ofText? gatheredText = some gathered := by
    decide +kernel
  have hschema := ofSdl?_eq_merged htext scattered_extensible
  exact ⟨⟨htext, scattered_extensible, hother, scattered_rearranges_gathered⟩, hschema.1,
    hschema.2 gatheredText gathered hother scattered_rearranges_gathered⟩

end Schema

end SelectionCompiler
