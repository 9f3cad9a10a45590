import SelectionCompiler.Json.Decode
import SelectionCompiler.Schema.TypeRef

/-!
Introspection results: the description of a schema that a server returns. A type
reference is a chain of wrappers that should end in a named type. Reading one off
a JSON value passes over members it does not know; a member that it does know
must not be repeated. Each part of a result is read from an object: an array of the
values of its members is not taken for it.
-/

namespace SelectionCompiler.Introspection

/-- One layer of a reference: its kind, the name it carries and what it wraps. -/
inductive TypeReference where
  | layer (kind : String) (name : Option String) (ofType : Option TypeReference)

structure InputValue where
  name : String
  type : Option TypeReference

structure Field where
  name : String
  arguments : List InputValue
  type : Option TypeReference

structure FullType where
  kind : String
  name : Option String
  fields : Option (List Field)

structure Document where
  queryType : Option String
  mutationType : Option String
  types : List FullType

/-- The reference of a chain of wrappers; none when the chain ends without a name. -/
def TypeReference.toTypeRef? : TypeReference → Option TypeRef
  | .layer kind name ofType =>
      if kind = "NON_NULL" then
        match ofType with
        | some t => t.toTypeRef?.map .nonNull
        | none => none
      else if kind = "LIST" then
        match ofType with
        | some t => t.toTypeRef?.map .list
        | none => none
      else name.map .named

/-! ## Reading -/

/-- The one member with the given key: none when it is repeated. -/
def member? (v : Json) (key : String) : Option (Option Json) := do
  match (← v.toMembers?).filter (·.1 == key) with
  | [] => some none
  | [(_, w)] => some (some w)
  | _ => none

def required {α : Type} (v : Json) (key : String) (decode : Json → Option α) : Option α := do
  decode (← ← member? v key)

def optional {α : Type} (v : Json) (key : String) (decode : Json → Option α) :
    Option (Option α) := do
  match ← member? v key with
  | none | some .null => some none
  | some w => (decode w).map some

/-- A reference as deep as `fuel` at most. -/
def typeReferenceWithin : Nat → Json → Option TypeReference
  | 0, _ => none
  | fuel + 1, v => do
      return .layer (← required v "kind" Json.toString?) (← optional v "name" Json.toString?)
        (← optional v "ofType" (typeReferenceWithin fuel))

def typeReference? (v : Json) : Option TypeReference := typeReferenceWithin (v.nesting + 1) v

def inputValue? (v : Json) : Option InputValue := do
  return ⟨← required v "name" Json.toString?, ← optional v "type" typeReference?⟩

def field? (v : Json) : Option Field := do
  let arguments ← match ← member? v "args" with
    | none => some []
    | some w => w.toList? inputValue?
  return ⟨← required v "name" Json.toString?, arguments, ← optional v "type" typeReference?⟩

def fullType? (v : Json) : Option FullType := do
  return ⟨← required v "kind" Json.toString?, ← optional v "name" Json.toString?,
    ← optional v "fields" (Json.toList? field?)⟩

/-- The name in an object that holds nothing else of interest. -/
def typeName? (v : Json) : Option String := required v "name" Json.toString?

def schema? (v : Json) : Option Document := do
  return ⟨← optional v "queryType" typeName?, ← optional v "mutationType" typeName?,
    ← required v "types" (Json.toList? fullType?)⟩

/-- The document in a response: under `data`, or failing that at the top. -/
def Document.ofJson? (v : Json) : Option Document :=
  match required v "data" (required · "__schema" schema?) with
  | some document => some document
  | none => required v "__schema" schema?

end SelectionCompiler.Introspection
