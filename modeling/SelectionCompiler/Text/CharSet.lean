/-!
Sets of characters given by the code points at which membership changes: from the
first of them characters are members, from the second they are not, and so on.
-/

namespace SelectionCompiler.Text

structure CharSet where
  flips : List Nat

namespace CharSet

/-- A character is a member when an odd number of changes lie at or before it. -/
def contains (s : CharSet) (c : Char) : Bool :=
  (s.flips.takeWhile (· ≤ c.toNat)).length % 2 = 1

def hexValue (c : Char) : Nat :=
  if c.isDigit then c.toNat - '0'.toNat else c.toNat - 'a'.toNat + 10

/-- Hexadecimal numbers with blanks between them; `begun` is the value of the digits
of a number that has begun. -/
def numbersFrom (begun : Option Nat) : List Char → List Nat
  | [] => begun.toList
  | c :: rest =>
      if c.isWhitespace then begun.toList ++ numbersFrom none rest
      else numbersFrom (some (begun.getD 0 * 16 + hexValue c)) rest

/-- The set whose changes are listed in hexadecimal. -/
def ofHex (text : String) : CharSet := ⟨numbersFrom none text.toList⟩

end CharSet

end SelectionCompiler.Text
