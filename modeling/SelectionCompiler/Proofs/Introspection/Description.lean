import SelectionCompiler.Introspection.Document
import SelectionCompiler.Schema.OfDocument
import SelectionCompiler.Schema.OfIntrospection
import Mathlib.Data.List.Forall2

/-!
Introspection results that describe given type definitions. A description has, for each
definition in order, an object with the kind and the name of the type and, for an object or
an interface, its fields with their arguments; every reference to a type is a chain of
wrappers around a name. Members can stand in any order, and others may stand beside them.
The plain description has nothing but these members, so that every list of definitions has
a description.
-/

namespace SelectionCompiler

namespace Json

/-- The object holds the value under the key, and under this key no other. -/
def Holds (v : Json) (key : String) (w : Json) : Prop :=
  ∃ members, v = .obj members ∧ members.filter (·.1 == key) = [(key, w)]

/-- The object has no member with the key. -/
def Lacks (v : Json) (key : String) : Prop :=
  ∃ members, v = .obj members ∧ members.filter (·.1 == key) = []

/-- The object says nothing under the key: no member has it, or one that is null. -/
def IsBlank (v : Json) (key : String) : Prop := v.Lacks key ∨ v.Holds key .null

/-- The object holds a list under the key, whose items stand for the given things. -/
def Lists {α : Type} (v : Json) (key : String) (stands : α → Json → Prop) (xs : List α) : Prop :=
  ∃ items, v.Holds key (.arr items) ∧ List.Forall₂ stands xs items

end Json

namespace Introspection

/-- The value is the chain of wrappers of a reference. -/
def Refers : TypeRef → Json → Prop
  | .named name, v =>
      (∃ kind, v.Holds "kind" (.str kind) ∧ kind ≠ "NON_NULL" ∧ kind ≠ "LIST") ∧
        v.Holds "name" (.str name) ∧ v.IsBlank "ofType"
  | .list item, v =>
      v.Holds "kind" (.str "LIST") ∧ v.IsBlank "name" ∧ ∃ w, v.Holds "ofType" w ∧ Refers item w
  | .nonNull inner, v =>
      v.Holds "kind" (.str "NON_NULL") ∧ v.IsBlank "name" ∧
        ∃ w, v.Holds "ofType" w ∧ Refers inner w

def DescribesArgument (a : ArgumentDef) (v : Json) : Prop :=
  v.Holds "name" (.str a.name) ∧ ∃ w, v.Holds "type" w ∧ Refers a.type w

/-- A field without arguments need not have a list of them. -/
def DescribesField (f : Sdl.Field) (v : Json) : Prop :=
  v.Holds "name" (.str f.name) ∧
    (v.Lists "args" DescribesArgument f.arguments ∨ f.arguments = [] ∧ v.Lacks "args") ∧
      ∃ w, v.Holds "type" w ∧ Refers f.type w

def kindText : Sdl.Body → String
  | .object _ => "OBJECT"
  | .interface _ => "INTERFACE"
  | .union => "UNION"
  | .scalar => "SCALAR"
  | .enumeration => "ENUM"
  | .input => "INPUT_OBJECT"

/-- Objects and interfaces list their fields; other types say nothing of any. -/
def DescribesFields (v : Json) : Sdl.Body → Prop
  | .object fields | .interface fields => v.Lists "fields" DescribesField fields
  | _ => v.IsBlank "fields"

def DescribesType (type : String × Sdl.Body) (v : Json) : Prop :=
  v.Holds "kind" (.str (kindText type.2)) ∧ v.Holds "name" (.str type.1) ∧
    DescribesFields v type.2

/-- The operation type under a key, where there is one. -/
def DescribesRoot (v : Json) (key : String) : Option String → Prop
  | some name => ∃ w, v.Holds key w ∧ w.Holds "name" (.str name)
  | none => v.IsBlank key

def DescribesSchema (types : List (String × Sdl.Body)) (roots : Sdl.Roots) (v : Json) : Prop :=
  DescribesRoot v "queryType" roots.query ∧ DescribesRoot v "mutationType" roots.mutation ∧
    v.Lists "types" DescribesType types

/-- The whole result, in its envelope or without it. -/
def Describes (types : List (String × Sdl.Body)) (roots : Sdl.Roots) (v : Json) : Prop :=
  (∃ w, v.Holds "data" w ∧ ∃ s, w.Holds "__schema" s ∧ DescribesSchema types roots s) ∨
    v.Lacks "data" ∧ ∃ s, v.Holds "__schema" s ∧ DescribesSchema types roots s

/-! ## The plain description -/

/-- The chain of wrappers of a reference; `kinds` gives the kind of each named type. -/
def referenceJson (kinds : String → String) : TypeRef → Json
  | .named name => .obj [("kind", .str (kinds name)), ("name", .str name), ("ofType", .null)]
  | .list item =>
      .obj [("kind", .str "LIST"), ("name", .null), ("ofType", referenceJson kinds item)]
  | .nonNull inner =>
      .obj [("kind", .str "NON_NULL"), ("name", .null), ("ofType", referenceJson kinds inner)]

def argumentJson (kinds : String → String) (a : ArgumentDef) : Json :=
  .obj [("name", .str a.name), ("type", referenceJson kinds a.type)]

def fieldJson (kinds : String → String) (f : Sdl.Field) : Json :=
  .obj [("name", .str f.name), ("args", .arr (f.arguments.map (argumentJson kinds))),
    ("type", referenceJson kinds f.type)]

def fieldsJson (kinds : String → String) : Sdl.Body → Json
  | .object fields | .interface fields => .arr (fields.map (fieldJson kinds))
  | _ => .null

def typeJson (kinds : String → String) (type : String × Sdl.Body) : Json :=
  .obj [("kind", .str (kindText type.2)), ("name", .str type.1),
    ("fields", fieldsJson kinds type.2)]

def rootJson : Option String → Json
  | some name => .obj [("name", .str name)]
  | none => .null

/-- The kind of the last definition of a name, or of a scalar where there is none. -/
def kindIn (types : List (String × Sdl.Body)) (name : String) : String :=
  match types.reverse.lookup name with
  | some body => kindText body
  | none => "SCALAR"

def plainDescription (types : List (String × Sdl.Body)) (roots : Sdl.Roots) : Json :=
  .obj [("data", .obj [("__schema", .obj [("queryType", rootJson roots.query),
    ("mutationType", rootJson roots.mutation),
    ("types", .arr (types.map (typeJson (kindIn types))))])])]

theorem kindText_not_wrapper (body : Sdl.Body) :
    kindText body ≠ "NON_NULL" ∧ kindText body ≠ "LIST" := by
  cases body <;> simp [kindText]

theorem kindIn_not_wrapper (types : List (String × Sdl.Body)) (name : String) :
    kindIn types name ≠ "NON_NULL" ∧ kindIn types name ≠ "LIST" := by
  unfold kindIn
  split
  · exact kindText_not_wrapper _
  · decide

theorem forall₂_map {α : Type} {stands : α → Json → Prop} {write : α → Json}
    (h : ∀ x, stands x (write x)) (xs : List α) : List.Forall₂ stands xs (xs.map write) := by
  rw [List.forall₂_map_right_iff]
  exact List.forall₂_same.mpr fun x _ => h x

section

variable {kinds : String → String} (hkinds : ∀ name, kinds name ≠ "NON_NULL" ∧ kinds name ≠ "LIST")

include hkinds

theorem refers_referenceJson (ref : TypeRef) : Refers ref (referenceJson kinds ref) := by
  induction ref with
  | named name =>
      exact ⟨⟨kinds name, ⟨_, rfl, rfl⟩, hkinds name⟩, ⟨_, rfl, rfl⟩, .inr ⟨_, rfl, rfl⟩⟩
  | list item ih => exact ⟨⟨_, rfl, rfl⟩, .inr ⟨_, rfl, rfl⟩, _, ⟨_, rfl, rfl⟩, ih⟩
  | nonNull inner ih => exact ⟨⟨_, rfl, rfl⟩, .inr ⟨_, rfl, rfl⟩, _, ⟨_, rfl, rfl⟩, ih⟩

theorem describesArgument_argumentJson (a : ArgumentDef) :
    DescribesArgument a (argumentJson kinds a) :=
  ⟨⟨_, rfl, rfl⟩, _, ⟨_, rfl, rfl⟩, refers_referenceJson hkinds a.type⟩

theorem describesField_fieldJson (f : Sdl.Field) : DescribesField f (fieldJson kinds f) := by
  refine ⟨⟨_, rfl, rfl⟩, .inl ⟨_, ⟨_, rfl, rfl⟩, ?_⟩, _, ⟨_, rfl, rfl⟩,
    refers_referenceJson hkinds f.type⟩
  exact forall₂_map (describesArgument_argumentJson hkinds) f.arguments

theorem describesType_typeJson (type : String × Sdl.Body) :
    DescribesType type (typeJson kinds type) := by
  obtain ⟨name, body⟩ := type
  refine ⟨⟨_, rfl, rfl⟩, ⟨_, rfl, rfl⟩, ?_⟩
  cases body with
  | object fields =>
      exact ⟨_, ⟨_, rfl, rfl⟩, forall₂_map (describesField_fieldJson hkinds) fields⟩
  | interface fields =>
      exact ⟨_, ⟨_, rfl, rfl⟩, forall₂_map (describesField_fieldJson hkinds) fields⟩
  | union | scalar | enumeration | input => exact .inr ⟨_, rfl, rfl⟩

end

theorem describesRoot_rootJson {v : Json} {key : String} {root : Option String}
    (h : v.Holds key (rootJson root)) : DescribesRoot v key root := by
  cases root with
  | none => exact .inr h
  | some name => exact ⟨_, h, _, rfl, rfl⟩

/-- Every list of definitions has a description. -/
theorem describes_plainDescription (types : List (String × Sdl.Body)) (roots : Sdl.Roots) :
    Describes types roots (plainDescription types roots) := by
  refine .inl ⟨_, ⟨_, rfl, rfl⟩, _, ⟨_, rfl, rfl⟩, ?_⟩
  refine ⟨describesRoot_rootJson ⟨_, rfl, rfl⟩, describesRoot_rootJson ⟨_, rfl, rfl⟩, _,
    ⟨_, rfl, rfl⟩, ?_⟩
  exact forall₂_map (describesType_typeJson (kindIn_not_wrapper types)) types

end Introspection

end SelectionCompiler
