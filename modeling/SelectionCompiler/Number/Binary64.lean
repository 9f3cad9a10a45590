/-!
Non-negative binary floating-point numbers with 53 significant bits, in exact
natural-number arithmetic. Rounding goes to the nearest value, a tie to the even
mantissa, and a value of `2 ^ 1024` or more after rounding is an overflow.
Products and quotients round the exact result once.
-/

namespace SelectionCompiler

/-- The number `mantissa · 2 ^ exponent`. -/
structure Binary64 where
  mantissa : Nat
  exponent : Int
deriving DecidableEq, Inhabited

/-- A quotient rounded to the nearest natural number, a half going to the even
neighbour. -/
def roundHalfEven (num den : Nat) : Nat :=
  let quotient := num / den
  let twice := 2 * (num % den)
  if twice < den then quotient
  else if den < twice then quotient + 1
  else if quotient % 2 = 0 then quotient
  else quotient + 1

/-- The fraction `num / den · base ^ power` as numerator and denominator. -/
def scaleRatio (base : Nat) (power : Int) (num den : Nat) : Nat × Nat :=
  if 0 ≤ power then (num * Nat.pow base power.toNat, den)
  else (num, den * Nat.pow base (-power).toNat)

namespace Binary64

/-- The least exponent: values below `2 ^ (-1022)` keep it and lose mantissa bits. -/
def minExponent : Int := -1074

/-- The exponent of the largest finite values. -/
def maxExponent : Int := 971

/-- The value nearest to `num / den`, or none when it lies beyond the finite range. -/
def ofRatio? (num den : Nat) : Option Binary64 :=
  let guess := max ((num.log2 : Int) - (den.log2 : Int) - 53) minExponent
  let scaled := scaleRatio 2 (-guess) num den
  let exponent := if Nat.pow 2 53 ≤ scaled.1 / scaled.2 then guess + 1 else guess
  let scaled := scaleRatio 2 (-exponent) num den
  let mantissa := roundHalfEven scaled.1 scaled.2
  let rounded : Binary64 :=
    if mantissa = Nat.pow 2 53 then ⟨Nat.pow 2 52, exponent + 1⟩ else ⟨mantissa, exponent⟩
  if maxExponent < rounded.exponent then none else some rounded

/-- The value as an exact fraction. -/
def toRatio (x : Binary64) : Nat × Nat := scaleRatio 2 x.exponent x.mantissa 1

def ofNat? (n : Nat) : Option Binary64 := ofRatio? n 1

def mul? (x y : Binary64) : Option Binary64 :=
  ofRatio? (x.toRatio.1 * y.toRatio.1) (x.toRatio.2 * y.toRatio.2)

def div? (x y : Binary64) : Option Binary64 :=
  ofRatio? (x.toRatio.1 * y.toRatio.2) (x.toRatio.2 * y.toRatio.1)

/-- The largest power of ten in the finite range. -/
def maxPowerOfTen : Nat := 308

/-- Multiplies by `10 ^ power`, the power itself being rounded first. -/
def scaleUp? (x : Binary64) (power : Nat) : Option Binary64 :=
  if x.mantissa = 0 then some x
  else if maxPowerOfTen < power then none
  else do x.mul? (← ofNat? (Nat.pow 10 power))

/-- Divides by `10 ^ power`, in steps of the largest power of ten while the power
exceeds it. -/
def scaleDown? (x : Binary64) (power : Nat) : Option Binary64 :=
  if x.mantissa = 0 then some x
  else if maxPowerOfTen < power then do
    scaleDown? (← x.div? (← ofNat? (Nat.pow 10 maxPowerOfTen))) (power - maxPowerOfTen)
  else do x.div? (← ofNat? (Nat.pow 10 power))
termination_by power
decreasing_by simp only [maxPowerOfTen] at *; omega

/-- The value reached from `n · 10 ^ power` by rounding `n` and then scaling it. -/
def ofScaled? (n : Nat) (power : Int) : Option Binary64 := do
  let x ← ofNat? n
  if 0 ≤ power then x.scaleUp? power.toNat else x.scaleDown? (-power).toNat

end Binary64

end SelectionCompiler
