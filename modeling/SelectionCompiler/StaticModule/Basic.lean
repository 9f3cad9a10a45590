import SelectionCompiler.Selection.StaticTable

/-!
Modules of static tables in the Rust language: a table for each submodel and each
root, a table for each nested selection in them, and the depth of each root as a
constant. `text` writes the module out.
-/

namespace SelectionCompiler

inductive Declaration where
  | table (identifier : String) (doc : String) (items : List StaticItem)
  | depth (identifier : String) (value : Nat)
deriving DecidableEq, Inhabited

namespace Declaration

def identifier : Declaration → String
  | .table identifier _ _ => identifier
  | .depth identifier _ => identifier

/-- The items of a table under its identifier. -/
def table? : Declaration → Option (String × List StaticItem)
  | .table identifier _ items => some (identifier, items)
  | .depth _ _ => none

end Declaration

/-- A module: the path from which it imports the type of its items, and what it
declares. -/
structure StaticModule where
  helpersPath : String
  declarations : List Declaration
deriving DecidableEq, Inhabited

namespace StaticItem

def text : StaticItem → String
  | .field name => "StaticSelection::Field(" ++ Text.quoted name ++ ")"
  | .nested name table => "StaticSelection::Nested(" ++ Text.quoted name ++ ", &" ++ table ++ ")"
  | .reference name table =>
      "StaticSelection::Reference(" ++ Text.quoted name ++ ", &" ++ table ++ ")"

end StaticItem

namespace Declaration

def text : Declaration → String
  | .table identifier doc items =>
      "\n/// " ++ doc ++ "\n#[allow(non_upper_case_globals)]\npub static " ++ identifier
        ++ ": [StaticSelection; " ++ items.length.repr ++ "] = [\n"
        ++ String.join (items.map fun item => "    " ++ item.text ++ ",\n") ++ "];\n"
  | .depth identifier value =>
      "pub const " ++ identifier ++ ": usize = " ++ value.repr ++ ";\n"

end Declaration

namespace StaticModule

/-- The identifiers that a module declares, in order. -/
def identifiers (m : StaticModule) : List String := m.declarations.map Declaration.identifier

/-- The tables of a module as a family, under their identifiers. -/
def family (m : StaticModule) : StaticFamily :=
  ⟨.ofList (m.declarations.filterMap Declaration.table?)⟩

def header : String := "// Generated by schemamap. Do not edit.\n"

def text (m : StaticModule) : String :=
  header ++ "\nuse " ++ m.helpersPath ++ "::StaticSelection;\n"
    ++ String.join (m.declarations.map Declaration.text)

end StaticModule

end SelectionCompiler
