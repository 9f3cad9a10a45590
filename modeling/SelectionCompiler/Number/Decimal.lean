/-!
Signed decimal numbers in lowest terms: a coefficient that does not end in a
zero, times a power of ten. Each value has one such form for each sign, so two
decimals are equal exactly when they denote the same signed number.
-/

namespace SelectionCompiler

/-- The number `± coefficient · 10 ^ exponent`; zero keeps its sign and has
exponent zero. -/
structure Decimal where
  negative : Bool
  coefficient : Nat
  exponent : Int
  lowest : coefficient % 10 ≠ 0 ∨ (coefficient = 0 ∧ exponent = 0)
deriving DecidableEq

namespace Decimal

/-- Moves the zeros at the end of a coefficient into the exponent. -/
def reduce (coefficient : Nat) (exponent : Int) : Nat × Int :=
  if coefficient = 0 then (0, 0)
  else if coefficient % 10 = 0 then reduce (coefficient / 10) (exponent + 1)
  else (coefficient, exponent)
termination_by coefficient
decreasing_by omega

theorem reduce_lowest (coefficient : Nat) (exponent : Int) :
    (reduce coefficient exponent).1 % 10 ≠ 0 ∨
      ((reduce coefficient exponent).1 = 0 ∧ (reduce coefficient exponent).2 = 0) := by
  fun_induction reduce coefficient exponent with
  | case1 => exact .inr ⟨rfl, rfl⟩
  | case2 _ _ _ _ ih => exact ih
  | case3 _ _ _ h => exact .inl h

/-- The decimal with the given sign that equals `± coefficient · 10 ^ exponent`. -/
def ofScaled (negative : Bool) (coefficient : Nat) (exponent : Int) : Decimal :=
  ⟨negative, (reduce coefficient exponent).1, (reduce coefficient exponent).2,
    reduce_lowest coefficient exponent⟩

def zero (negative : Bool) : Decimal := ⟨negative, 0, 0, .inr ⟨rfl, rfl⟩⟩

instance : Inhabited Decimal := ⟨zero false⟩

end Decimal

end SelectionCompiler
