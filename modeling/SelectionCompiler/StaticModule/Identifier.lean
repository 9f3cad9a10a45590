/-!
Identifiers of Rust modules. A keyword is written as a raw identifier, and the few
names that cannot be raw get an underscore. A claimed identifier is one that is
not in use yet: that of the wanted name, or else of the wanted name with the
least number, from two on, that makes it free.
-/

namespace SelectionCompiler.Identifier

/-- The keywords that can be written as raw identifiers. -/
def keywords : List String :=
  ["as", "async", "await", "break", "const", "continue", "dyn", "else", "enum", "extern", "false",
    "fn", "for", "if", "impl", "in", "let", "loop", "match", "mod", "move", "mut", "pub", "ref",
    "return", "static", "struct", "trait", "true", "type", "unsafe", "use", "where", "while",
    "abstract", "become", "box", "do", "final", "gen", "macro", "override", "priv", "try",
    "typeof", "unsized", "virtual", "yield"]

/-- The names that no identifier can have. -/
def reserved : List String := ["self", "Self", "super", "crate", "_"]

/-- The identifier of a name. -/
def ofName (name : String) : String :=
  if reserved.contains name then name ++ "_"
  else if keywords.contains name then "r#" ++ name
  else name

/-- The identifier of a name with a number. -/
def numbered (name : String) (n : Nat) : String := ofName (name ++ "_" ++ n.repr)

/-- The numbers from two on, one for each identifier in use: one of the numbered
identifiers must be free if the wanted one is not. -/
def numbers (used : List String) : List Nat := (List.range used.length).map (· + 2)

/-- An identifier for the wanted name that is not in use. -/
def claim (used : List String) (wanted : String) : String :=
  if ofName wanted ∈ used then
    match (numbers used).find? fun n => numbered wanted n ∉ used with
    | some n => numbered wanted n
    | none => ofName wanted
  else ofName wanted

end SelectionCompiler.Identifier
