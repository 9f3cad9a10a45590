/-!
The tokens of schema definition texts. Blanks, line ends, commas, byte order
marks and comments separate tokens and mean nothing else. What a literal stands
for never reaches a schema, so a literal token records its kind only; a badly
formed literal is no token. Brackets may be nested to a fixed depth.
-/

namespace SelectionCompiler.Sdl

inductive Token where
  | punct (c : Char)
  | name (text : String)
  | int
  | float
  | string
deriving DecidableEq, Inhabited

namespace Token

def isIgnored (c : Char) : Bool :=
  c == ' ' || c == '\t' || c == '\n' || c == '\r' || c == ',' || c == '\ufeff'

def isLineEnd (c : Char) : Bool := c == '\n' || c == '\r'

def isPunctuator (c : Char) : Bool :=
  ['!', '$', ':', '=', '@', '|', '&', '(', ')', '[', ']', '{', '}'].contains c

def isNameStart (c : Char) : Bool := c.isAlpha || c == '_'

def isNamePart (c : Char) : Bool := c.isAlphanum || c == '_'

/-! ## Numbers -/

/-- A number ends at the first of these characters. -/
def endsNumber (c : Char) : Bool :=
  [' ', '\n', '\r', '\t', ',', '#', '!', '$', ':', '=', '@', '|', '&', '(', ')', '[', ']', '{',
    '}'].contains c

def allDigits (cs : List Char) : Bool := cs.all Char.isDigit

/-- Zero with or without a sign, or digits of which the first is not zero. -/
def isInt : List Char → Bool
  | ['0'] => true
  | ['-', '0'] => true
  | '0' :: _ => false
  | '-' :: '0' :: _ => false
  | ['-'] => false
  | _ :: rest => allDigits rest
  | [] => false

/-- An exponent is a sign or a digit from one to eight, and digits; a sign needs a
digit after it. -/
def isExponent : List Char → Bool
  | [] => false
  | c :: rest =>
      if c = '-' || c = '+' then !rest.isEmpty && allDigits rest
      else '0' < c && c < '9' && allDigits rest

/-- The text before the last character that satisfies `p`, and the text after it. -/
def splitLast? (p : Char → Bool) (cs : List Char) : Option (List Char × List Char) :=
  let tail := cs.reverse.takeWhile (!p ·)
  if tail.length < cs.length then
    some (cs.take (cs.length - tail.length - 1), tail.reverse)
  else none

def isExponentMark (c : Char) : Bool := c == 'e' || c == 'E'

/-- A fraction: a whole number, a point and at least one digit. -/
def isFraction (cs : List Char) : Bool :=
  match splitLast? (· == '.') cs with
  | some (whole, digits) => isInt whole && !digits.isEmpty && allDigits digits
  | none => isInt cs

def isFloat (cs : List Char) : Bool :=
  match splitLast? isExponentMark cs with
  | some (base, exponent) => isFraction base && isExponent exponent
  | none => isFraction cs

/-- Whether a whole number fits the 64-bit integers. -/
def fitsInt : List Char → Bool
  | '-' :: digits => Nat.ofDigitChars 10 digits 0 ≤ Nat.pow 2 63
  | digits => Nat.ofDigitChars 10 digits 0 < Nat.pow 2 63

/-- The token of a stretch of text that starts like a number. -/
def ofNumber? (cs : List Char) : Option Token :=
  if cs.any fun c => c == '.' || isExponentMark c then
    if isFloat cs then some .float else none
  else if isInt cs && fitsInt cs then some .int
  else none

/-! ## Strings -/

def hexValue? (c : Char) : Option Nat :=
  if '0' ≤ c && c ≤ '9' then some (c.toNat - '0'.toNat)
  else if 'a' ≤ c && c ≤ 'f' then some (c.toNat - 'a'.toNat + 10)
  else if 'A' ≤ c && c ≤ 'F' then some (c.toNat - 'A'.toNat + 10)
  else none

def hexNumber? (cs : List Char) : Option Nat :=
  cs.foldlM (fun n c => (hexValue? c).map (n * 16 + ·)) 0

/-- Four characters that name a code point: hexadecimal digits, the first of which
may be a plus sign instead. -/
def isCodePoint (a b c d : Char) : Bool :=
  let digits := if a = '+' then [b, c, d] else [a, b, c, d]
  match hexNumber? digits with
  | some n => n < 0xD800 || 0xE000 ≤ n
  | none => false

/-- Passes over a string after its opening quote. -/
def skipString? : List Char → Option (List Char)
  | [] => none
  | '"' :: rest => some rest
  | '\n' :: _ => none
  | '\\' :: 'u' :: a :: b :: c :: d :: rest =>
      if isCodePoint a b c d then skipString? rest else none
  | '\\' :: c :: rest =>
      if ['"', '\\', '/', 'b', 'f', 'n', 'r', 't'].contains c then skipString? rest else none
  | '\\' :: [] => none
  | _ :: rest => skipString? rest

/-- Passes over a block string after its three opening quotes. Three quotes after a
backslash belong to the string. -/
def skipBlock? : List Char → Option (List Char)
  | [] => none
  | '"' :: '"' :: '"' :: rest => some rest
  | '\\' :: '"' :: '"' :: '"' :: rest => skipBlock? rest
  | _ :: rest => skipBlock? rest

/-! ## Texts -/

/-- The token at the front of a text that starts with none of the ignored
characters. -/
def next? : List Char → Option (Token × List Char)
  | [] => none
  | '"' :: '"' :: '"' :: rest => (skipBlock? rest).map fun rest => (.string, rest)
  | '"' :: rest => (skipString? rest).map fun rest => (.string, rest)
  | c :: rest =>
      if isPunctuator c then some (.punct c, rest)
      else if isNameStart c then
        let part := rest.takeWhile isNamePart
        some (.name (String.ofList (c :: part)), rest.drop part.length)
      else if c.isDigit || c == '-' then
        let part := rest.takeWhile (!endsNumber ·)
        (ofNumber? (c :: part)).map fun t => (t, rest.drop part.length)
      else none

/-- Reads tokens to the end of the text; `seen` holds those read, last one first.
The fuel bounds the number of steps, each of which takes a character at least. -/
def scan (seen : List Token) : Nat → List Char → Option (List Token)
  | _, [] => some seen.reverse
  | 0, _ :: _ => none
  | fuel + 1, c :: rest =>
      if isIgnored c then scan seen fuel rest
      else if c = '#' then scan seen fuel (rest.dropWhile (!isLineEnd ·))
      else
        match next? (c :: rest) with
        | some (t, rest) => scan (t :: seen) fuel rest
        | none => none

/-- The number of brackets that may be open at once. -/
def maxOpen : Nat := 50

/-- Whether no more than `maxOpen` brackets are ever open, `depth` of them from the
start. -/
def withinLimit : Nat → List Token → Bool
  | _, [] => true
  | depth, .punct c :: rest =>
      if ['(', '[', '{'].contains c then depth < maxOpen && withinLimit (depth + 1) rest
      else if [')', ']', '}'].contains c then withinLimit (depth - 1) rest
      else withinLimit depth rest
  | depth, _ :: rest => withinLimit depth rest

/-- The tokens of a text. -/
def ofText? (text : String) : Option (List Token) := do
  let tokens ← scan [] text.length text.toList
  if withinLimit 0 tokens then some tokens else none

end Token

end SelectionCompiler.Sdl
