import SelectionCompiler.Proofs.StaticModule.Identifier
import SelectionCompiler.StaticModule.Basic

/-!
The module that a text of static tables stands for. The text falls into lines and
these, at the empty ones, into paragraphs: the comment at the top, the import of
the items' type, and one for each table. Constants stand at the end of the last
two kinds. A table has to hold as many items as it declares.
-/

namespace SelectionCompiler

abbrev Line := List Char

namespace Line

/-- What is left of a line that begins with `text`. -/
def after? (text : String) (line : Line) : Option Line := text.toList.isPrefixOf? line

/-- What comes first in a line that ends with `text`. -/
def before? (text : String) (line : Line) : Option Line := text.toList.isSuffixOf? line

/-- An identifier, raw or not, and what follows it. -/
def identifier? (line : Line) : Option (String × Line) :=
  let (mark, rest) := match line with
    | 'r' :: '#' :: rest => ("r#", rest)
    | _ => ("", line)
  let name := rest.takeWhile Identifier.isChar
  if name.isEmpty then none
  else some (mark ++ String.ofList name, rest.dropWhile Identifier.isChar)

/-- A decimal number and what follows it. -/
def number? (line : Line) : Option (Nat × Line) :=
  let digits := line.takeWhile Char.isDigit
  if digits.isEmpty then none
  else some (Nat.ofDigitChars 10 digits 0, line.dropWhile Char.isDigit)

/-- A name in double quotes, without escapes, and what follows it. -/
def quoted? (line : Line) : Option (String × Line) := do
  let rest ← after? "\"" line
  let name := rest.takeWhile fun c => c ≠ '"' && c ≠ '\\'
  let rest ← after? "\"" (rest.dropWhile fun c => c ≠ '"' && c ≠ '\\')
  return (String.ofList name, rest)

/-- A name, up to the bracket that closes an item. -/
def leaf? (line : Line) : Option String := do
  let (name, rest) ← quoted? line
  if rest = ")".toList then return name else none

/-- A name and the table that it links to, up to the bracket that closes an item. -/
def link? (line : Line) : Option (String × String) := do
  let (name, rest) ← quoted? line
  let (table, rest) ← identifier? (← after? ", &" rest)
  if rest = ")".toList then return (name, table) else none

def item? (line : Line) : Option StaticItem := do
  let item ← before? "," (← after? "    " line)
  ((after? "StaticSelection::Field(" item).bind leaf?).map StaticItem.field
    <|> ((after? "StaticSelection::Nested(" item).bind link?).map (fun l => .nested l.1 l.2)
    <|> ((after? "StaticSelection::Reference(" item).bind link?).map fun l => .reference l.1 l.2

def constant? (line : Line) : Option Declaration := do
  let (identifier, rest) ← identifier? (← after? "pub const " line)
  let (value, rest) ← number? (← after? ": usize = " rest)
  if rest = ";".toList then return .depth identifier value else none

/-- The identifier of a table and the number of its items. -/
def head? (line : Line) : Option (String × Nat) := do
  let (identifier, rest) ← identifier? (← after? "pub static " line)
  let (size, rest) ← number? (← after? ": [StaticSelection; " rest)
  if rest = "] = [".toList then return (identifier, size) else none

/-! ## Paragraphs -/

/-- The lines of a text that ends with a line feed. -/
def lines? (text : List Char) : Option (List Line) :=
  let parts := text.splitOn '\n'
  if parts.getLast? = some [] then some parts.dropLast else none

/-- The stretches of lines between empty lines. -/
def paragraphs (lines : List Line) : List (List Line) := lines.splitOn []

/-- Items up to the line that closes a table, and the lines after it. -/
def items? : List Line → Option (List StaticItem × List Line)
  | [] => none
  | line :: rest =>
      if line = "];".toList then some ([], rest)
      else do
        let item ← item? line
        let (items, rest) ← items? rest
        return (item :: items, rest)

/-- A table and the constants after it. -/
def table? : List Line → Option (List Declaration)
  | comment :: allowance :: head :: rest => do
      let doc ← after? "/// " comment
      let (identifier, size) ← head? head
      let (items, rest) ← items? rest
      let constants ← rest.mapM constant?
      if allowance = "#[allow(non_upper_case_globals)]".toList ∧ items.length = size then
        return .table identifier (String.ofList doc) items :: constants
      else none
  | _ => none

/-- The imported path and the constants after the import. -/
def preamble? : List Line → Option (String × List Declaration)
  | line :: rest => do
      let path ← before? "::StaticSelection;" (← after? "use " line)
      return (String.ofList path, ← rest.mapM constant?)
  | [] => none

end Line

open Line in
def StaticModule.ofText? (text : String) : Option StaticModule := do
  match paragraphs (← lines? text.toList) with
  | comment :: preamble :: tables =>
      let (path, constants) ← preamble? preamble
      let tables ← tables.mapM table?
      if comment = ["// Generated by schemamap. Do not edit.".toList] then
        return ⟨path, constants ++ tables.flatten⟩
      else none
  | _ => none

end SelectionCompiler
