import SelectionCompiler.Number.Binary64
import SelectionCompiler.Number.Decimal

/-!
The shortest decimal of a binary floating-point number: among the decimals that
round to the number, one with the fewest digits, and of those the nearest to it,
a tie going to the even last digit.
-/

namespace SelectionCompiler

namespace Binary64

/-- The reals that round to a positive number lie between `low / den` and
`high / den`; the two ends belong to them when the mantissa is even. -/
structure Rounding where
  low : Nat
  value : Nat
  high : Nat
  den : Nat
  closed : Bool

/-- Below a power of two the neighbours stand half as far apart as above it. -/
def rounding (x : Binary64) : Rounding :=
  let lowGap := if x.mantissa = Nat.pow 2 52 ∧ minExponent < x.exponent then 1 else 2
  let low := scaleRatio 2 (x.exponent - 2) (4 * x.mantissa - lowGap) 1
  let value := scaleRatio 2 (x.exponent - 2) (4 * x.mantissa) 1
  let high := scaleRatio 2 (x.exponent - 2) (4 * x.mantissa + 2) 1
  ⟨low.1, value.1, high.1, value.2, x.mantissa % 2 = 0⟩

/-- Whether `n · 10 ^ power` rounds to the number. -/
def Rounding.accepts (r : Rounding) (n : Nat) (power : Int) : Bool :=
  let point := scaleRatio 10 power n 1
  let here := point.1 * r.den
  let low := r.low * point.2
  let high := r.high * point.2
  if r.closed then low ≤ here && here ≤ high else low < here && here < high

/-- The multiple of `10 ^ power` next to the number that rounds to it, the nearer
one if both neighbours do. -/
def Rounding.onGrid? (r : Rounding) (power : Int) : Option Nat :=
  let scaled := scaleRatio 10 (-power) r.value r.den
  let below := scaled.1 / scaled.2
  let nearest := roundHalfEven scaled.1 scaled.2
  let other := if nearest = below then below + 1 else below
  if r.accepts nearest power then some nearest
  else if r.accepts other power then some other
  else none

/-- Searches grids of ever finer spacing, from `10 ^ power` down. -/
def Rounding.search (r : Rounding) : Nat → Int → Option (Nat × Int)
  | 0, _ => none
  | fuel + 1, power =>
      match r.onGrid? power with
      | some n => some (n, power)
      | none => r.search fuel (power - 1)

/-- A power of ten above the number. -/
def powerAbove (x : Binary64) : Int :=
  (((x.mantissa.log2 : Int) + x.exponent + 1) * 30103) / 100000 + 2

/-- Seventeen digits always suffice, and the search starts at most four powers of
ten above the first of them. -/
def shortest (negative : Bool) (x : Binary64) : Decimal :=
  if x.mantissa = 0 then .zero negative
  else match x.rounding.search 22 x.powerAbove with
    | some (n, power) => .ofScaled negative n power
    | none => .zero negative

end Binary64

end SelectionCompiler
