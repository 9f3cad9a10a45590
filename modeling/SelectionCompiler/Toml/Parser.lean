import SelectionCompiler.Text.Reader
import SelectionCompiler.Toml.Number
import SelectionCompiler.Toml.Token
import SelectionCompiler.Toml.Value

/-!
Reading TOML texts into sections. A section is a header with the entries below it
up to the next header; the entries before the first header form a section of
their own, if there are any.
-/

namespace SelectionCompiler.Toml

abbrev TomlReader := Reader Token

open Reader

/-- Passes over blanks. -/
def skipBlank : TomlReader Unit := do
  match ← peek with
  | some (.blank _) => discard next
  | _ => return

/-! ## Numbers and dates -/

def bare : TomlReader String := do
  match ← next with
  | .bare text => return text
  | _ => refuse

/-- The value of an option, or refusal. -/
def lift {α : Type} : Option α → TomlReader α
  | some a => pure a
  | none => refuse

/-- The exponent whose mark stands at the front of `mark`; a plus sign is a token of
its own. -/
def exponentAfter (mark : List Char) : TomlReader Int := do
  match mark with
  | [_] =>
      discard (accept .plus)
      let text ← bare
      if text.startsWith "-" || text.startsWith "+" then refuse else lift (exponent? text.toList)
  | _ :: rest => lift (exponent? rest)
  | [] => refuse

/-- A floating-point number of the given digits, with an exponent in the rest of the
characters or nothing. -/
def floatWith (whole fraction rest : List Char) : TomlReader Value := do
  let power ← match rest with
    | [] => pure 0
    | c :: _ => if isExponentMark c then exponentAfter rest else refuse
  if inFloatRange (whole ++ fraction) (power - fraction.length) then return .float else refuse

/-- A floating-point number without a point. -/
def plainFloat (text : List Char) : TomlReader Value := do
  let (whole, rest) ← lift (floatWhole? text)
  floatWith whole [] rest

/-- A floating-point number after its point. -/
def pointFloat (text : List Char) : TomlReader Value := do
  let (whole, rest) ← lift (floatWhole? text)
  let (fraction, after) ← lift (digits? 10 true (← bare).toList)
  if rest.isEmpty then floatWith whole fraction after else refuse

/-- The number that begins with a bare token. -/
def number (text : String) : TomlReader Value := do
  let cs := text.toList
  match cs with
  | '0' :: 'x' :: rest => (lift (basedInt? 16 rest)).map .integer
  | '0' :: 'o' :: rest => (lift (basedInt? 8 rest)).map .integer
  | '0' :: 'b' :: rest => (lift (basedInt? 2 rest)).map .integer
  | _ =>
      if cs.any isExponentMark then plainFloat cs
      else if ← accept .period then pointFloat cs
      else if ["inf", "-inf", "nan", "-nan"].contains text then return .float
      else (lift (decimalInt? cs)).map .integer

/-- Whether a bare token looks like a date, or like a date and a time. -/
def looksLikeDate (text : String) : Bool :=
  let cs := text.toList
  let hasExponent := cs.zip (cs.drop 1) |>.any fun p => isExponentMark p.1 && p.2 == '-'
  cs.contains 'T' || cs.contains 't' || ((cs.drop 1).contains '-' && !hasExponent)

/-- An hour set off from the date by a single blank. -/
def skipHour : TomlReader Unit := fun tokens =>
  match tokens with
  | .blank " " :: .bare _ :: rest => some ((), rest)
  | _ => some ((), tokens)

/-- Minutes, seconds and the offset after the colon behind the hour. -/
def timeAfterHour : TomlReader Unit := do
  discard bare
  expect .colon
  discard bare
  if ← accept .period then discard bare
  if ← accept .plus then discard bare
  if ← accept .colon then discard bare

/-- A date or time whose first token has been taken, as well as a colon if
`colonTaken`. -/
def date (colonTaken : Bool) : TomlReader Value := do
  skipHour
  if colonTaken then timeAfterHour
  else if ← accept .colon then timeAfterHour
  return .date

def numberOrDate (text : String) : TomlReader Value := do
  if looksLikeDate text then date false
  else if ← accept .colon then date true
  else number text

/-- The value that begins with a bare token. -/
def bareValue (text : String) : TomlReader Value := do
  match text with
  | "true" => return .boolean true
  | "false" => return .boolean false
  | "inf" | "nan" => numberOrDate text
  | _ =>
      match text.toList with
      | c :: _ => if c.isDigit || c = '-' then numberOrDate text else refuse
      | [] => refuse

/-! ## Keys and values -/

/-- One part of a key. -/
def keyPart : TomlReader String := do
  match ← next with
  | .bare text => return text
  | .quoted text multiline => if multiline then refuse else return text
  | _ => refuse

/-- A key with blanks around its points and after it. -/
def dottedKey : TomlReader (List String) := do
  let part : TomlReader String := do
    skipBlank
    let text ← keyPart
    skipBlank
    return text
  separated .period part

/-- Passes over blanks and line ends. -/
def skipLines : Nat → TomlReader Unit
  | 0 => return
  | fuel + 1 => do
      skipBlank
      if ← accept .newline then skipLines fuel

def skipSpace : TomlReader Unit := do skipLines (← bound)

/-! The readers take fuel, which bounds the depth of their calls: every two calls take
a token. -/

mutual

def value : Nat → TomlReader Value
  | 0 => refuse
  | fuel + 1 => do
      match ← next with
      | .quoted text _ => return .string text
      | .bare text => bareValue text
      | .plus => number (← bare)
      | .openBrace =>
          skipBlank
          if ← accept .closeBrace then return .table .braces []
          else return .table .braces (← braceEntries fuel [])
      | .openBracket => return .array (← items fuel)
      | _ => refuse

/-- The entries of a table in braces, after those that have been read. -/
def braceEntries : Nat → Entries → TomlReader Entries
  | 0, _ => refuse
  | fuel + 1, entries => do
      let entries ← entry fuel entries
      skipBlank
      if ← accept .closeBrace then return entries
      else
        expect .comma
        skipBlank
        braceEntries fuel entries

/-- An entry, added to those that have been read. -/
def entry : Nat → Entries → TomlReader Entries
  | 0, _ => refuse
  | fuel + 1, entries => do
      let key ← dottedKey
      expect .equals
      skipBlank
      let v ← value fuel
      lift (entries.addDotted v key)

/-- The items of an array up to its closing bracket; a comma may stand before it. -/
def items : Nat → TomlReader (List Value)
  | 0 => refuse
  | fuel + 1 => do
      skipSpace
      if ← accept .closeBracket then return []
      else
        let v ← value fuel
        skipSpace
        if ← accept .comma then return v :: (← items fuel)
        else
          expect .closeBracket
          return [v]

end

/-! ## Sections -/

/-- Entries under a header; the path of the header is empty for the entries before
the first one. The header can ask for one more item of an array of tables. -/
structure Section where
  path : List String
  array : Bool
  entries : Entries
deriving Inhabited

/-- The end of a line, or of the text. -/
def lineEnd : TomlReader Unit := do
  unless ← atEnd do expect .newline

/-- A header after its first bracket. -/
def header : TomlReader Section := do
  let array ← accept .openBracket
  skipBlank
  let path ← dottedKey
  expect .closeBracket
  if array then expect .closeBracket
  skipBlank
  lineEnd
  return ⟨path, array, []⟩

/-- Reads the rest of the text. The first argument is the section that has begun, if
any; each step takes a token, which the fuel counts. -/
def sectionsFrom (current : Option Section) : Nat → TomlReader (List Section)
  | 0 => refuse
  | fuel + 1 => do
      skipSpace
      if ← atEnd then return current.toList
      else if ← accept .openBracket then
        let next ← header
        return current.toList ++ (← sectionsFrom (some next) fuel)
      else
        let now := current.getD ⟨[], false, []⟩
        let entries ← entry (2 * (← bound)) now.entries
        skipBlank
        lineEnd
        sectionsFrom (some { now with entries := entries }) fuel

/-- The sections of a text. -/
def sections? (text : String) : Option (List Section) := do
  let tokens ← Token.ofText? text
  (sectionsFrom none (tokens.length + 1)).run' tokens

end SelectionCompiler.Toml
