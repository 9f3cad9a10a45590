import SelectionCompiler.Compilation.Basic
import SelectionCompiler.StaticModule.Basic
import SelectionCompiler.StaticModule.Identifier

/-!
The static module of a compilation. The identifiers of all submodels are claimed
first, so that a reference can name a table declared later. A nested selection
becomes a table of its own, whose identifier is claimed with the item that links
to it and which is declared after the table that holds the item.
-/

namespace SelectionCompiler

namespace StaticModule

/-- Names of types and the identifiers of their tables. -/
abbrev TableNames := OrdMap String

/-- The identifier of a type's table. -/
def tableOf (names : TableNames) (type : String) : String :=
  (names.get? type).getD (Identifier.ofName type)

/-- The name of the table for a nested selection under `base`. -/
def nestedBase (base name : String) : String := base ++ "_" ++ name

/-- The items of a selection, and the identifiers in use after claiming one for each
nested selection in it. -/
def items (names : TableNames) (base : String) (used : List String) :
    Selection → List StaticItem × List String
  | [] => ([], used)
  | .field name :: rest =>
      let (others, used) := items names base used rest
      (.field name :: others, used)
  | .reference name type :: rest =>
      let (others, used) := items names base used rest
      (.reference name (tableOf names type) :: others, used)
  | .nested name _ :: rest =>
      let identifier := Identifier.claim used (nestedBase base name)
      let (others, used) := items names base (identifier :: used) rest
      (.nested name identifier :: others, used)

def nestedDoc (base : String) : String := "Inline selection of `" ++ base ++ "`."

mutual

/-- The tables for the nested selection of an element, whose item links to the first
of them. -/
def elementTables (names : TableNames) (base : String) (used : List String) :
    Element → StaticItem → List Declaration × List String
  | .nested name children, .nested _ identifier =>
      let base := nestedBase base name
      let (own, used) := items names base used children
      let (below, used) := listTables names base used children own
      (.table identifier (nestedDoc base) own :: below, used)
  | _, _ => ([], used)

/-- The tables for the nested selections of a list of elements with their items. -/
def listTables (names : TableNames) (base : String) (used : List String) :
    List Element → List StaticItem → List Declaration × List String
  | e :: elements, item :: items =>
      let (first, used) := elementTables names base used e item
      let (others, used) := listTables names base used elements items
      (first ++ others, used)
  | _, _ => ([], used)

end

/-- The table of a selection under a claimed identifier, followed by the tables of
the selections nested in it. -/
def tables (names : TableNames) (used : List String) (identifier base doc : String)
    (selection : Selection) : List Declaration × List String :=
  let (own, used) := items names base used selection
  let (below, used) := listTables names base used selection own
  (.table identifier doc own :: below, used)

/-- Claims an identifier for the table of each submodel. -/
def claimTableNames (naming : Naming) :
    TableNames → List String → List Submodel → TableNames × List String
  | names, used, [] => (names, used)
  | names, used, m :: rest =>
      let identifier := Identifier.claim used (naming.tableName m.typeName)
      claimTableNames naming (names.insert m.typeName identifier) (identifier :: used) rest

def submodelDoc (naming : Naming) (typesPath : Option String) (type : String) : String :=
  match typesPath with
  | some path => "Fields of [`" ++ path ++ "::" ++ naming.render type ++ "`]."
  | none => "Fields of `" ++ type ++ "`."

def submodelTables (naming : Naming) (typesPath : Option String) (names : TableNames) :
    List String → List Submodel → List Declaration × List String
  | used, [] => ([], used)
  | used, m :: rest =>
      let (first, used) := tables names used (tableOf names m.typeName) m.typeName
        (submodelDoc naming typesPath m.typeName) m.selection
      let (others, used) := submodelTables naming typesPath names used rest
      (first ++ others, used)

def rootDoc (r : Root) : String :=
  "`" ++ r.operation.keyword ++ " " ++ r.field ++ "` returning `" ++ r.returnType ++ "`."

/-- The name of the constant with a root's depth. -/
def depthName (field : String) : String := Text.shoutingCase field ++ "_DEPTH"

def rootTables (names : TableNames) : List String → List Root → List Declaration × List String
  | used, [] => ([], used)
  | used, r :: rest =>
      let identifier := Identifier.claim used r.field
      let (first, used) :=
        tables names (identifier :: used) identifier r.field (rootDoc r) r.selection
      let depthIdentifier := Identifier.claim used (depthName r.field)
      let (others, used) := rootTables names (depthIdentifier :: used) rest
      (first ++ .depth depthIdentifier r.depth :: others, used)

end StaticModule

namespace Compilation

open StaticModule in
/-- The module with the tables of a compilation. -/
def staticModule (c : Compilation) (naming : Naming) (config : Config) : StaticModule :=
  let (names, used) := claimTableNames naming ∅ [] c.submodels.submodels
  let (submodels, used) :=
    submodelTables naming config.typesPath names used c.submodels.submodels
  let (roots, _) := rootTables names used c.roots.values
  ⟨config.helpersPath, submodels ++ roots⟩

end Compilation

end SelectionCompiler
