/-!
The tokens of TOML texts. Blanks are tokens, since a few constructs forbid or
demand them; a comment is passed over, and must end with its line. A line end may
be written with a carriage return before it, and the text may begin with a byte
order mark.
-/

namespace SelectionCompiler.Toml

inductive Token where
  | blank (text : String)
  | newline
  | equals
  | period
  | comma
  | colon
  | plus
  | openBrace
  | closeBrace
  | openBracket
  | closeBracket
  | bare (text : String)
  | quoted (text : String) (multiline : Bool)
deriving DecidableEq, Inhabited

namespace Token

/-- Bare keys, numbers and dates are made of these characters. -/
def isBare (c : Char) : Bool := c.isAlphanum || c == '-' || c == '_'

def isBlank (c : Char) : Bool := c == ' ' || c == '\t'

/-- Comments may hold any character but control characters. -/
def isCommentPart (c : Char) : Bool := c == '\t' || 0x20 ≤ c.toNat

/-- Strings may hold any character but control characters. -/
def isStringPart (c : Char) : Bool := c == '\t' || (0x20 ≤ c.toNat && c.toNat ≠ 0x7f)

/-- The text with every line end as a single character. -/
def foldLineEnds : List Char → List Char
  | '\r' :: '\n' :: rest => '\n' :: foldLineEnds rest
  | c :: rest => c :: foldLineEnds rest
  | [] => []

/-! ## Strings -/

def hexValue? (c : Char) : Option Nat :=
  if '0' ≤ c && c ≤ '9' then some (c.toNat - '0'.toNat)
  else if 'a' ≤ c && c ≤ 'f' then some (c.toNat - 'a'.toNat + 10)
  else if 'A' ≤ c && c ≤ 'F' then some (c.toNat - 'A'.toNat + 10)
  else none

/-- The character whose code the digits give, if it is one. -/
def codePoint? (digits : List Char) : Option Char := do
  let n ← digits.foldlM (fun n c => (hexValue? c).map (n * 16 + ·)) 0
  if n.isValidChar then some (Char.ofNat n) else none

/-- The character of a one-letter escape. -/
def simpleEscape? : Char → Option Char
  | '"' => some '"'
  | '\\' => some '\\'
  | 'b' => some '\x08'
  | 'f' => some '\x0c'
  | 'n' => some '\n'
  | 'r' => some '\r'
  | 't' => some '\t'
  | _ => none

/-- The character of the escape after a backslash, and what follows it. -/
def escape? : List Char → Option (Char × List Char)
  | 'u' :: rest =>
      if rest.length < 4 then none
      else (codePoint? (rest.take 4)).map fun c => (c, rest.drop 4)
  | 'U' :: rest =>
      if rest.length < 8 then none
      else (codePoint? (rest.take 8)).map fun c => (c, rest.drop 8)
  | c :: rest => (simpleEscape? c).map fun e => (e, rest)
  | [] => none

/-- Whether an escape is the end of a line, after blanks at will: it leaves nothing
in the string, and neither do the blanks and line ends that follow. -/
def isContinuation (cs : List Char) : Bool := (cs.dropWhile isBlank).head? = some '\n'

def afterContinuation (cs : List Char) : List Char :=
  cs.dropWhile fun c => isBlank c || c == '\n'

/-- What a string forbids or demands: its delimiter, whether backslashes escape, and
whether it may hold line ends. -/
structure StringKind where
  delimiter : Char
  escapes : Bool
  multiline : Bool

/-- The end of a string at a delimiter: how many delimiters belong to the string
still, and what follows it. A string of several lines ends with three, and up to
two more in front of these belong to it; none if the string goes on. -/
def close? (k : StringKind) (rest : List Char) : Option (Nat × List Char) :=
  if k.multiline then
    let more := min (rest.takeWhile (· == k.delimiter)).length 4
    if more < 2 then none else some (more - 2, rest.drop more)
  else some (0, rest)

/-- Reads a string after its opening; `seen` holds what has been read, last character
first. Every step takes a character, which the fuel counts. -/
def readString (k : StringKind) (seen : List Char) :
    Nat → List Char → Option (List Char × List Char)
  | 0, _ => none
  | _, [] => none
  | fuel + 1, c :: rest =>
      if c = k.delimiter then
        match close? k rest with
        | some (own, rest) => some ((List.replicate own c ++ seen).reverse, rest)
        | none => readString k (c :: seen) fuel rest
      else if c = '\n' then
        if k.multiline then readString k (c :: seen) fuel rest else none
      else if c = '\\' && k.escapes then
        if k.multiline && isContinuation rest then
          readString k seen fuel (afterContinuation rest)
        else
          match escape? rest with
          | some (e, rest) => readString k (e :: seen) fuel rest
          | none => none
      else if isStringPart c then readString k (c :: seen) fuel rest
      else none

/-- The string token after an opening delimiter. The first line end in a string of
several lines is left out. -/
def quoted? (delimiter : Char) (escapes : Bool) (rest : List Char) :
    Option (Token × List Char) :=
  let more := (rest.takeWhile (· == delimiter)).length
  if more = 1 then some (.quoted "" false, rest.drop 1)
  else
    let multiline := 2 ≤ more
    let body := if multiline then rest.drop 2 else rest
    let body := if multiline && body.head? = some '\n' then body.drop 1 else body
    (readString ⟨delimiter, escapes, multiline⟩ [] (body.length + 1) body).map fun (s, rest) =>
      (.quoted (String.ofList s) multiline, rest)

/-! ## Texts -/

def punctuation? : Char → Option Token
  | '\n' => some .newline
  | '=' => some .equals
  | '.' => some .period
  | ',' => some .comma
  | ':' => some .colon
  | '+' => some .plus
  | '{' => some .openBrace
  | '}' => some .closeBrace
  | '[' => some .openBracket
  | ']' => some .closeBracket
  | _ => none

/-- The token at the front, which is no comment. -/
def next? (c : Char) (rest : List Char) : Option (Token × List Char) :=
  match punctuation? c with
  | some t => some (t, rest)
  | none =>
      if isBlank c then
        let more := rest.takeWhile isBlank
        some (.blank (String.ofList (c :: more)), rest.drop more.length)
      else if c = '"' then quoted? c true rest
      else if c = '\'' then quoted? c false rest
      else if isBare c then
        let part := rest.takeWhile isBare
        some (.bare (String.ofList (c :: part)), rest.drop part.length)
      else none

/-- Whether a line ends here. -/
def atLineEnd (cs : List Char) : Bool := cs.isEmpty || cs.head? = some '\n'

/-- Reads tokens to the end of the text; `seen` holds those read, last one first.
The fuel bounds the number of steps, each of which takes a character at least. -/
def scan (seen : List Token) : Nat → List Char → Option (List Token)
  | _, [] => some seen.reverse
  | 0, _ :: _ => none
  | fuel + 1, c :: rest =>
      if c = '#' then
        let rest := rest.dropWhile isCommentPart
        if atLineEnd rest then scan seen fuel rest else none
      else
        match next? c rest with
        | some (t, rest) => scan (t :: seen) fuel rest
        | none => none

/-- The tokens of a text. -/
def ofText? (text : String) : Option (List Token) :=
  let cs := foldLineEnds text.toList
  let cs := if cs.head? = some '\ufeff' then cs.drop 1 else cs
  scan [] cs.length cs

end Token

end SelectionCompiler.Toml
