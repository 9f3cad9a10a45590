import SelectionCompiler.Json.Quoted
import Mathlib.Tactic.Common

/-!
Reading back quoted strings. Each escaped character is read as the character it stands for,
so a quoted string is read as the string that was quoted, whatever comes after it.
-/

namespace SelectionCompiler.Json.Quoted

/-- The escape of a control character names its code. -/
theorem unit?_hexDigit {n : Nat} (h : n < 0x20) :
    unit? '0' '0' (hexDigit (n / 16)) (hexDigit n) = some n := by
  revert n
  decide +kernel

theorem decode_escape (c : Char) (seen rest : List Char) :
    decode seen (escape c ++ rest) = decode (c :: seen) rest := by
  unfold escape
  split
  · rfl
  · rfl
  · rfl
  · rfl
  · rfl
  · rfl
  · rfl
  · rename_i hquote hbackslash _ _ _ _ _
    split
    · rename_i hcontrol
      have hlow : isLowSurrogate c.toNat = false := by
        simp [isLowSurrogate]
        omega
      have hhigh : isHighSurrogate c.toNat = false := by
        simp [isHighSurrogate]
        omega
      simp [decode, unit?_hexDigit hcontrol, hlow, hhigh]
    · rename_i hplain
      have hbackslash : c ≠ '\\' := hbackslash
      simp [decode, hbackslash, hplain]

theorem decode_flatMap_escape (s seen rest : List Char) :
    decode seen (s.flatMap escape ++ '"' :: rest) = some (seen.reverse ++ s, rest) := by
  induction s generalizing seen with
  | nil => simp [decode]
  | cons c s ih =>
      rw [List.flatMap_cons, List.append_assoc, decode_escape, ih]
      simp

end SelectionCompiler.Json.Quoted
