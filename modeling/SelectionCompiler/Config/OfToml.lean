import SelectionCompiler.Config
import SelectionCompiler.Failure
import SelectionCompiler.Toml.Document

/-!
Settings from TOML texts and files. A setting may be given once; entries that are
no settings are passed over. Within the renames a repeated name takes its last
value.
-/

namespace SelectionCompiler.Config

open Toml

/-- The value of a setting, or its default; none if the setting is given twice or its
value does not fit. -/
def setting? {α : Type} (entries : Entries) (key : String) (default : α)
    (decode : Value → Option α) : Option α :=
  match entries.filter (·.1 == key) with
  | [] => some default
  | [(_, v)] => decode v
  | _ => none

def depthOf? (v : Value) : Option Nat := do
  let n ← v.toInt?
  if 0 ≤ n then some n.toNat else none

/-- A policy is given by its name, which can also be the key of an empty table in
braces. -/
def policyOf? : Value → Option NamingPolicy
  | .string name => NamingPolicy.ofText? name
  | .table .braces [(name, .table _ [])] => NamingPolicy.ofText? name
  | _ => none

def renamesOf? (v : Value) : Option (OrdMap String) := do
  let entries ← v.toEntries?
  return .ofList (← entries.mapM fun e => e.2.toString?.map fun name => (e.1, name))

def stringsOf? (v : Value) : Option (List String) := do (← v.toItems?).mapM Value.toString?

def ofEntries? (entries : Entries) : Option Config := do
  return {
    rootDepth := ← setting? entries "root_depth" standard.rootDepth depthOf?
    submodelDepth := ← setting? entries "submodel_depth" standard.submodelDepth depthOf?
    policy := ← setting? entries "naming" standard.policy policyOf?
    renames := ← setting? entries "renames" standard.renames renamesOf?
    extraFlags := ← setting? entries "extra_flags" standard.extraFlags stringsOf?
    helpersPath := ← setting? entries "helpers_path" standard.helpersPath Value.toString?
    typesPath := ← setting? entries "types_path" standard.typesPath (·.toString?.map some) }

def ofToml? (text : String) : Option Config := (Toml.parse? text).bind ofEntries?

def load {m : Type → Type} [Monad m] (disk : Disk m) (path : String) :
    ExceptT Failure m Config := do
  let text ← (disk.readText path).adapt Failure.file
  match ofToml? text with
  | some config => return config
  | none => throw (.config path)

end SelectionCompiler.Config
