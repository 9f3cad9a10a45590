import SelectionCompiler.Json.Decode
import SelectionCompiler.Schema.Basic

/-!
The classification of argument names into flags, enums and plain arguments, which
are written differently in queries. Flags are names given as such, a few names
that are flags for every schema, and arguments of root fields whose type is a
scalar that is not built in. Enums are the names of enum types, and arguments of
root fields whose type is an enum. A name that is both is a flag. The JSON form is an
object, and no other value is read as one.
-/

namespace SelectionCompiler

inductive ArgumentStyle where
  | flag
  | enumeration
  | plain
deriving DecidableEq, Inhabited

namespace ArgumentStyle

def text : ArgumentStyle → String
  | .flag => "flag"
  | .enumeration => "enum"
  | .plain => "plain"

def ofText? : String → Option ArgumentStyle
  | "flag" => some .flag
  | "enum" => some .enumeration
  | "plain" => some .plain
  | _ => none

end ArgumentStyle

structure Classification where
  flags : OrdSet
  enums : OrdSet
deriving DecidableEq

namespace Classification

/-- What is assumed when no schema has been looked at. -/
def standalone : Classification := ⟨.ofList ["flags", "type"], .ofList ["sectionType"]⟩

instance : Inhabited Classification := ⟨standalone⟩

/-- The names that are flags for every schema. -/
def defaultFlags : List String := ["flags", "type", "status", "mode", "kind"]

def isFlag (c : Classification) (name : String) : Bool := name ∈ c.flags

def isEnum (c : Classification) (name : String) : Bool := name ∈ c.enums

def styleOf (c : Classification) (name : String) : ArgumentStyle :=
  if c.isFlag name then .flag else if c.isEnum name then .enumeration else .plain

def ofJson? (v : Json) : Option Classification := do
  return ⟨.ofList (← v.required "flags" (Json.toList? Json.toString?)),
    .ofList (← v.required "enums" (Json.toList? Json.toString?))⟩

end Classification

namespace Schema

/-- The arguments of all fields at which operations start. -/
def rootArguments (schema : Schema) : List ArgumentDef :=
  schema.rootTypes.flatMap fun root => root.2.fields.values.flatMap (·.arguments)

def isCustomScalar (schema : Schema) (name : String) : Bool :=
  schema.kindOf? name = some .scalar && !isBuiltinScalar name

def isEnumType (schema : Schema) (name : String) : Bool :=
  schema.kindOf? name = some .enumeration

/-- The names of the enum types that are no introspection types. -/
def enumTypeNames (schema : Schema) : List String :=
  (schema.types.values.filter fun type =>
    type.kind = .enumeration && !isIntrospectionName type.name).map (·.name)

/-- The names of the root arguments whose type satisfies `p`. -/
def argumentNames (schema : Schema) (p : String → Bool) : List String :=
  (schema.rootArguments.filter fun a => p a.type.target).map (·.name)

def classify (schema : Schema) (extraFlags : List String) : Classification where
  flags := .ofList
    (extraFlags ++ Classification.defaultFlags ++ schema.argumentNames schema.isCustomScalar)
  enums := .ofList (schema.enumTypeNames ++ schema.argumentNames schema.isEnumType)

end Schema

end SelectionCompiler
