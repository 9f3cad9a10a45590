import SelectionCompiler.Sdl.Document
import SelectionCompiler.Sdl.Token
import SelectionCompiler.Text.Reader

/-!
Reading schema documents from tokens. The grammar decides on one token at a time:
once a construct has begun it must be completed. Keywords are plain names and can
be used as names everywhere.
-/

namespace SelectionCompiler.Sdl

abbrev SdlReader := Reader Token

open Reader

def punct (c : Char) : SdlReader Unit := expect (.punct c)

def name : SdlReader String := do
  match ← next with
  | .name text => return text
  | _ => refuse

def acceptPunct (c : Char) : SdlReader Bool := accept (.punct c)

def acceptName (text : String) : SdlReader Bool := accept (.name text)

/-- The items between two marks, one at least; none where the opening mark is
missing. -/
def block {α : Type} (opening closing : Char) (item : SdlReader α) : SdlReader (List α) := do
  if ← acceptPunct opening then someUntilClose (.punct closing) item else return []

/-- One item or more with a mark between them and, at will, before the first. -/
def listed {α : Type} (mark : Char) (item : SdlReader α) : SdlReader (List α) := do
  discard (acceptPunct mark)
  separated (.punct mark) item

/-! ## Values and types -/

/-- A value; a variable counts as one only where `withVariables` allows it. The fuel
bounds the nesting. -/
def skipValue (withVariables : Bool) : Nat → SdlReader Unit
  | 0 => refuse
  | fuel + 1 => do
      match ← next with
      | .name _ | .int | .float | .string => return
      | .punct '$' => if withVariables then discard name else refuse
      | .punct '[' => discard (untilClose (.punct ']') (skipValue withVariables fuel))
      | .punct '{' =>
          discard (untilClose (.punct '}') do
            discard name
            punct ':'
            skipValue withVariables fuel)
      | _ => refuse

def value (withVariables : Bool) : SdlReader Unit := skipValue withVariables (Token.maxOpen + 1)

/-- The directives in front; the result says whether there is one. -/
def directives : SdlReader Bool := do
  let found ← eachAfter (.punct '@') do
    discard name
    discard (block '(' ')' do
      discard name
      punct ':'
      value true)
  return !found.isEmpty

def typeRefWithin : Nat → SdlReader TypeRef
  | 0 => refuse
  | fuel + 1 => do
      let base ← match ← next with
        | .name text => pure (TypeRef.named text)
        | .punct '[' => do
            let item ← typeRefWithin fuel
            punct ']'
            pure (.list item)
        | _ => refuse
      if ← acceptPunct '!' then return .nonNull base else return base

def typeRef : SdlReader TypeRef := typeRefWithin (Token.maxOpen + 1)

/-! ## Parts of definitions -/

/-- A description, if one stands in front; the result says whether it does. -/
def description : SdlReader Bool := accept .string

/-- An argument, or a field of an input type. -/
def inputValue : SdlReader ArgumentDef := do
  discard description
  let argumentName ← name
  punct ':'
  let type ← typeRef
  if ← acceptPunct '=' then value false
  discard directives
  return ⟨argumentName, type⟩

def field : SdlReader Field := do
  discard description
  let fieldName ← name
  let arguments ← block '(' ')' inputValue
  punct ':'
  let type ← typeRef
  discard directives
  return ⟨fieldName, arguments, type⟩

/-- The interfaces that a type implements; the result says whether there is one. -/
def interfaces : SdlReader Bool := do
  if ← acceptName "implements" then
    discard (listed '&' name)
    return true
  else return false

/-- A type as it is written: its body, and whether an extension with this text would
add anything. -/
structure Written where
  name : String
  body : Body
  adds : Bool

def scalarType : SdlReader Written := do
  let typeName ← name
  let marked ← directives
  return ⟨typeName, .scalar, marked⟩

def objectType : SdlReader Written := do
  let typeName ← name
  let implementing ← interfaces
  let marked ← directives
  let fields ← block '{' '}' field
  return ⟨typeName, .object fields, implementing || marked || !fields.isEmpty⟩

def interfaceType : SdlReader Written := do
  let typeName ← name
  discard interfaces
  let marked ← directives
  let fields ← block '{' '}' field
  return ⟨typeName, .interface fields, marked || !fields.isEmpty⟩

def unionType : SdlReader Written := do
  let typeName ← name
  let marked ← directives
  let hasMembers ← acceptPunct '='
  if hasMembers then discard (listed '|' name)
  return ⟨typeName, .union, marked || hasMembers⟩

def enumType : SdlReader Written := do
  let typeName ← name
  let marked ← directives
  let values ← block '{' '}' do
    discard description
    discard name
    discard directives
  return ⟨typeName, .enumeration, marked || !values.isEmpty⟩

def inputType : SdlReader Written := do
  let typeName ← name
  let marked ← directives
  let fields ← block '{' '}' inputValue
  return ⟨typeName, .input, marked || !fields.isEmpty⟩

/-- The reader of what follows the keyword of a type definition. -/
def typeReader? : String → Option (SdlReader Written)
  | "scalar" => some scalarType
  | "type" => some objectType
  | "interface" => some interfaceType
  | "union" => some unionType
  | "enum" => some enumType
  | "input" => some inputType
  | _ => none

/-- The places at which a directive may be allowed. -/
def directiveLocations : List String :=
  ["QUERY", "MUTATION", "SUBSCRIPTION", "FIELD", "FRAGMENT_DEFINITION", "FRAGMENT_SPREAD",
    "INLINE_FRAGMENT", "VARIABLE_DEFINITION", "SCHEMA", "SCALAR", "OBJECT", "FIELD_DEFINITION",
    "ARGUMENT_DEFINITION", "INTERFACE", "UNION", "ENUM", "ENUM_VALUE", "INPUT_OBJECT",
    "INPUT_FIELD_DEFINITION"]

def directiveLocation : SdlReader Unit := do
  unless directiveLocations.contains (← name) do refuse

/-- The places of a directive. There may be none, but a name or a mark in front
always begins a list of them. -/
def directivePlaces : SdlReader Unit := do
  match ← peek with
  | some (.name _) | some (.punct '|') => discard (listed '|' directiveLocation)
  | _ => return

def directiveDefinition : SdlReader Definition := do
  punct '@'
  discard name
  discard (block '(' ')' inputValue)
  discard (acceptName "repeatable")
  expect (.name "on")
  directivePlaces
  return .directive

/-! ## Documents -/

/-- The operation types by keyword, each named at most once. -/
def rootsOf? (entries : List (String × String)) : Option Roots :=
  let keywords := entries.map Prod.fst
  if keywords.all (["query", "mutation", "subscription"].contains ·) ∧ keywords.Nodup then
    some ⟨entries.lookup "query", entries.lookup "mutation"⟩
  else none

def schemaDefinition : SdlReader Definition := do
  discard directives
  punct '{'
  let entries ← untilClose (.punct '}') do
    let keyword ← name
    punct ':'
    return (keyword, ← name)
  match rootsOf? entries with
  | some roots => return .roots roots
  | none => refuse

def typeDefinition (keyword : String) : SdlReader Definition := do
  match typeReader? keyword with
  | some reader =>
      let written ← reader
      return .type written.name written.body
  | none => refuse

def extensionDefinition : SdlReader Definition := do
  match typeReader? (← name) with
  | some reader =>
      let written ← reader
      if written.adds then return .extension written.name written.body else refuse
  | none => refuse

def definition : SdlReader Definition := do
  let described ← description
  match ← name, described with
  | "schema", false => schemaDefinition
  | "extend", false => extensionDefinition
  | "directive", _ => directiveDefinition
  | keyword, _ => typeDefinition keyword

/-- One definition or more up to the end of the tokens. -/
def definitions : Nat → SdlReader Document
  | 0 => refuse
  | fuel + 1 => do
      let d ← definition
      if ← atEnd then return [d] else return d :: (← definitions fuel)

/-- The document of a text. -/
def Document.ofText? (text : String) : Option Document := do
  let tokens ← Token.ofText? text
  (definitions (tokens.length + 1)).run' tokens

end SelectionCompiler.Sdl
