import SelectionCompiler.Json.Number
import SelectionCompiler.Json.Quoted

/-!
The tokens of a JSON text. Blanks, tabs and line ends separate tokens and mean
nothing else. A text in which some stretch is no token has no tokens at all.
-/

namespace SelectionCompiler.Json

inductive Token where
  | openBrace
  | closeBrace
  | openBracket
  | closeBracket
  | colon
  | comma
  | null
  | bool (value : Bool)
  | num (value : Number)
  | str (value : String)

namespace Token

def isBlank (c : Char) : Bool := c == ' ' || c == '\t' || c == '\n' || c == '\r'

/-- The digits at the front, of which there must be one, and the rest. -/
def digits? (cs : List Char) : Option (List Char × List Char) :=
  let ds := cs.takeWhile Char.isDigit
  if ds.isEmpty then none else some (ds, cs.drop ds.length)

/-- The whole part: one zero, or digits that do not begin with a zero. -/
def whole? (cs : List Char) : Option (List Char × List Char) := do
  let (ds, rest) ← digits? cs
  if 1 < ds.length && ds.head? == some '0' then none else some (ds, rest)

def fraction? : List Char → Option (Option (List Char) × List Char)
  | '.' :: rest => (digits? rest).map fun (ds, rest) => (some ds, rest)
  | rest => some (none, rest)

/-- The sign of an exponent, true for a minus. -/
def exponentSign : List Char → Bool × List Char
  | '-' :: rest => (true, rest)
  | '+' :: rest => (false, rest)
  | rest => (false, rest)

def exponent? : List Char → Option (Option (Bool × List Char) × List Char)
  | c :: rest =>
      if c = 'e' || c = 'E' then
        let (negative, rest) := exponentSign rest
        (digits? rest).map fun (ds, rest) => (some (negative, ds), rest)
      else some (none, c :: rest)
  | [] => some (none, [])

def sign : List Char → Bool × List Char
  | '-' :: rest => (true, rest)
  | rest => (false, rest)

/-- The number at the front. -/
def number? (cs : List Char) : Option (Number × List Char) := do
  let (negative, rest) := sign cs
  let (whole, rest) ← whole? rest
  let (fraction, rest) ← fraction? rest
  let (exponent, rest) ← exponent? rest
  let n ← Number.ofLiteral? ⟨negative, whole, fraction, exponent⟩
  some (n, rest)

/-- The token at the front of a text that does not start with a blank. -/
def next? : List Char → Option (Token × List Char)
  | '{' :: rest => some (.openBrace, rest)
  | '}' :: rest => some (.closeBrace, rest)
  | '[' :: rest => some (.openBracket, rest)
  | ']' :: rest => some (.closeBracket, rest)
  | ':' :: rest => some (.colon, rest)
  | ',' :: rest => some (.comma, rest)
  | 'n' :: 'u' :: 'l' :: 'l' :: rest => some (.null, rest)
  | 't' :: 'r' :: 'u' :: 'e' :: rest => some (.bool true, rest)
  | 'f' :: 'a' :: 'l' :: 's' :: 'e' :: rest => some (.bool false, rest)
  | '"' :: rest => (Quoted.decode [] rest).map fun (s, rest) => (.str (String.ofList s), rest)
  | cs => (number? cs).map fun (n, rest) => (.num n, rest)

/-- Reads tokens to the end of the text; `seen` holds those read, last one first.
The fuel bounds the number of steps, each of which takes a character at least. -/
def scan (seen : List Token) : Nat → List Char → Option (List Token)
  | _, [] => some seen.reverse
  | 0, _ :: _ => none
  | fuel + 1, c :: rest =>
      if isBlank c then scan seen fuel rest
      else
        match next? (c :: rest) with
        | some (t, rest) => scan (t :: seen) fuel rest
        | none => none

/-- The tokens of a text. -/
def ofText? (cs : List Char) : Option (List Token) := scan [] cs.length cs

end Token

end SelectionCompiler.Json
