import SelectionCompiler.Number.Binary64

/-!
Numbers of TOML texts, from the bare tokens that they are made of. Underscores may
stand between digits. Integers fit 64 bits with a sign; of a floating-point number
only whether it is one matters, and it is none when it is too large.
-/

namespace SelectionCompiler.Toml

/-- Whether a character is a digit in the base, and its value. -/
def digit? (base : Nat) (c : Char) : Option Nat :=
  let value :=
    if '0' ≤ c && c ≤ '9' then c.toNat - '0'.toNat
    else if 'a' ≤ c && c ≤ 'z' then c.toNat - 'a'.toNat + 10
    else if 'A' ≤ c && c ≤ 'Z' then c.toNat - 'A'.toNat + 10
    else base
  if value < base then some value else none

/-- Digits with single underscores between them: what has been seen of them is
nothing, a zero at the front, or some digits, and then perhaps an underscore. -/
structure DigitRun where
  digits : List Char
  leadingZero : Bool
  underscore : Bool

/-- Splits off the longest run of digits and underscores; the digits are in order and
without underscores. None if the run is empty, begins or ends with an underscore,
has two in a row, or has a digit after a zero at the front where that is not
allowed. -/
def digitRun? (base : Nat) (leadingZeros : Bool) (run : DigitRun) :
    List Char → Option (List Char × List Char)
  | [] => if run.digits.isEmpty || run.underscore then none else some (run.digits.reverse, [])
  | c :: rest =>
      if c = '_' && !run.underscore then
        if run.digits.isEmpty then none
        else digitRun? base leadingZeros { run with underscore := true } rest
      else if (digit? base c).isSome then
        if run.leadingZero && !leadingZeros then none
        else
          digitRun? base leadingZeros
            ⟨c :: run.digits, run.leadingZero || (run.digits.isEmpty && c = '0'), false⟩ rest
      else if run.digits.isEmpty || run.underscore then none
      else some (run.digits.reverse, c :: rest)

def digits? (base : Nat) (leadingZeros : Bool) (cs : List Char) :
    Option (List Char × List Char) := digitRun? base leadingZeros ⟨[], false, false⟩ cs

/-- A sign at the front: whether it is a minus. -/
def signed : List Char → Bool × List Char
  | '-' :: rest => (true, rest)
  | '+' :: rest => (false, rest)
  | cs => (false, cs)

def digitsValue (base : Nat) (digits : List Char) : Nat :=
  digits.foldl (fun n c => n * base + (digit? base c).getD 0) 0

/-- An integer that fits 64 bits. -/
def fitting? (negative : Bool) (value : Nat) : Option Int :=
  if negative then if value ≤ Nat.pow 2 63 then some (-(value : Int)) else none
  else if value < Nat.pow 2 63 then some value else none

/-- An integer in a base that its first two characters tell. -/
def basedInt? (base : Nat) (cs : List Char) : Option Int := do
  let (digits, rest) ← digits? base true cs
  if rest.isEmpty then fitting? false (digitsValue base digits) else none

def decimalInt? (cs : List Char) : Option Int := do
  let (negative, cs) := signed cs
  let (digits, rest) ← digits? 10 false cs
  if rest.isEmpty then fitting? negative (digitsValue 10 digits) else none

/-- Whether `digits · 10 ^ power` is in the range of floating-point numbers. -/
def inFloatRange (digits : List Char) (power : Int) : Bool :=
  let value := digitsValue 10 digits
  let magnitude := (Nat.toDigits 10 value).length + power
  value = 0 || magnitude < 300 ||
    (magnitude ≤ 310 &&
      let scaled := scaleRatio 10 power value 1
      (Binary64.ofRatio? scaled.1 scaled.2).isSome)

def isExponentMark (c : Char) : Bool := c == 'e' || c == 'E'

/-- The digits before the point or the exponent, and what follows them. -/
def floatWhole? (cs : List Char) : Option (List Char × List Char) := digits? 10 false (signed cs).2

/-- The exponent after its mark, all of the characters. -/
def exponent? (cs : List Char) : Option Int := do
  let (negative, cs) := signed cs
  let (digits, rest) ← digits? 10 true cs
  if rest.isEmpty then
    let value : Int := digitsValue 10 digits
    some (if negative then -value else value)
  else none

end SelectionCompiler.Toml
