import SelectionCompiler.Json.Basic

/-!
The numbers of JSON texts. A literal without fraction and exponent that fits the
64-bit integers is that integer. Any other literal stands for a floating-point
number: the leading digits that fit 64 bits are taken as a whole number and
scaled by the power of ten that the rest of the literal calls for. A value
beyond the finite range has no number.

Printed, an integer is its digits, and a decimal always has a fraction or an
exponent, so the two kinds never share a text.
-/

namespace SelectionCompiler.Json.Number

/-- The parts of a number literal; an absent fraction or exponent is none. -/
structure Literal where
  negative : Bool
  whole : List Char
  fraction : Option (List Char)
  exponent : Option (Bool × List Char)

/-- Digits read so far: their value, how many digits of the whole part were left
out and how many digits of the fraction were taken. -/
structure Significant where
  value : Nat
  skipped : Nat
  taken : Nat

def addWholeDigits : Nat → List Char → Significant
  | value, [] => ⟨value, 0, 0⟩
  | value, c :: rest =>
      let next := value * 10 + (c.toNat - '0'.toNat)
      if next < Nat.pow 2 64 then addWholeDigits next rest else ⟨value, rest.length + 1, 0⟩

def addFractionDigits : Significant → List Char → Significant
  | s, [] => s
  | s, c :: rest =>
      let next := s.value * 10 + (c.toNat - '0'.toNat)
      if next < Nat.pow 2 64 then
        addFractionDigits { s with value := next, taken := s.taken + 1 } rest
      else s

def exponentValue : Option (Bool × List Char) → Int
  | none => 0
  | some (negative, digits) =>
      let value := Nat.ofDigitChars 10 digits 0
      if negative then -(value : Int) else value

/-- The floating-point number of a literal, by its shortest decimal. -/
def Literal.decimal? (l : Literal) : Option Decimal :=
  let s := addFractionDigits (addWholeDigits 0 l.whole) (l.fraction.getD [])
  let power : Int := s.skipped - s.taken + exponentValue l.exponent
  (Binary64.ofScaled? s.value power).map (·.shortest l.negative)

/-- The integer of a literal that has neither fraction nor exponent, where it fits.
Negative zero is no integer. -/
def Literal.int? (l : Literal) : Option Int :=
  if l.fraction.isSome || l.exponent.isSome then none
  else
    let value := Nat.ofDigitChars 10 l.whole 0
    if l.negative then
      if 0 < value && value ≤ Nat.pow 2 63 then some (-(value : Int)) else none
    else if value < Nat.pow 2 64 then some value else none

def ofLiteral? (l : Literal) : Option Number :=
  match l.int? with
  | some n => some (.int n)
  | none => l.decimal?.map .decimal

/-- The digits `d₁d₂…` of a decimal with value `d₁.d₂… · 10 ^ e` are written in
place when `e` is in this range, and with an exponent otherwise. -/
def positional (e : Int) : Bool := -5 ≤ e && e ≤ 15

def signText (negative : Bool) : List Char := if negative then ['-'] else []

def intText (n : Int) : List Char := signText (n < 0) ++ Nat.toDigits 10 n.natAbs

/-- The digits with the point after the first `point` of them, filled up with zeros
on either side. -/
def pointText (digits : List Char) (point : Int) : List Char :=
  if point ≤ 0 then '0' :: '.' :: (List.replicate (-point).toNat '0' ++ digits)
  else
    let whole := digits.take point.toNat
    let fraction := digits.drop point.toNat
    whole ++ List.replicate (point.toNat - whole.length) '0'
      ++ '.' :: (if fraction.isEmpty then ['0'] else fraction)

def exponentText : List Char → Int → List Char
  | digits, e =>
      let mantissa := match digits with
        | first :: second :: rest => first :: '.' :: second :: rest
        | short => short
      mantissa ++ 'e' :: (if e < 0 then '-' else '+') :: Nat.toDigits 10 e.natAbs

def decimalText (d : Decimal) : List Char :=
  let digits := Nat.toDigits 10 d.coefficient
  let e := d.exponent + digits.length - 1
  signText d.negative ++
    (if positional e then pointText digits (e + 1) else exponentText digits e)

def text : Number → List Char
  | .int n => intText n
  | .decimal d => decimalText d

end SelectionCompiler.Json.Number
