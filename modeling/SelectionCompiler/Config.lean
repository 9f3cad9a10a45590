import SelectionCompiler.Naming
import SelectionCompiler.Schema.Codec

/-!
The settings of a compilation: the depths of roots and submodels, how types are
called, the argument names that are flags in any case, and the paths that
generated code refers to. Every setting has a default.
-/

namespace SelectionCompiler

structure Config where
  rootDepth : Nat
  submodelDepth : Nat
  policy : NamingPolicy
  renames : OrdMap String
  extraFlags : List String
  helpersPath : String
  typesPath : Option String
deriving DecidableEq

namespace Config

def standard : Config where
  rootDepth := 2
  submodelDepth := 1
  policy := default
  renames := ∅
  extraFlags := []
  helpersPath := "schemamap::selection"
  typesPath := none

instance : Inhabited Config := ⟨standard⟩

/-- The naming that the settings describe. -/
def naming (c : Config) : Naming := ⟨c.policy, c.renames, none⟩

/-- The settings of a JSON object; a member that is missing has its default. Arrays of
settings are refused. -/
def ofJson? (v : Json) : Option Config := do
  let _ ← v.toMembers?
  return {
    rootDepth := ← v.defaulted "root_depth" standard.rootDepth Json.toNat?
    submodelDepth := ← v.defaulted "submodel_depth" standard.submodelDepth Json.toNat?
    policy := ← v.defaulted "naming" standard.policy (·.toCase?.bind NamingPolicy.ofText?)
    renames := ← v.defaulted "renames" standard.renames (OrdMap.ofJson? Json.toString?)
    extraFlags := ← v.defaulted "extra_flags" standard.extraFlags (Json.toList? Json.toString?)
    helpersPath := ← v.defaulted "helpers_path" standard.helpersPath Json.toString?
    typesPath := ← v.optional "types_path" Json.toString? }

end Config

end SelectionCompiler
