import Mathlib.Tactic.Common

/-!
Lexers that go through a text character by character and may pass over some of it. A stretch
of text reads as a list of tokens when it does so before everything that begins with one of
the characters at which every token ends; readings of stretches side by side are put
together, and a reading of a whole text is what the lexer makes of it.
-/

namespace SelectionCompiler

/-! ### Stretches of characters of a kind -/

namespace Text

variable {p : Char → Bool} {xs rest : List Char}

theorem takeWhile_append_of_stop (hxs : ∀ c ∈ xs, p c = true)
    (hrest : ∀ c ∈ rest.head?, p c = false) : (xs ++ rest).takeWhile p = xs := by
  rw [List.takeWhile_append_of_pos hxs]
  cases rest with
  | nil => simp
  | cons c rest => simp [hrest c rfl]

theorem dropWhile_append_of_stop (hxs : ∀ c ∈ xs, p c = true)
    (hrest : ∀ c ∈ rest.head?, p c = false) : (xs ++ rest).dropWhile p = rest := by
  rw [List.dropWhile_append_of_pos hxs]
  cases rest with
  | nil => simp
  | cons c rest => simp [hrest c rfl]

end Text

/-! ### Lexers -/

/-- What happens at the first character of a text: it is refused, or a token is read or some
text passed over, and the rest is read next. -/
structure Lexer (τ : Type) where
  step : Char → List Char → Option (Option τ × List Char)
  /-- Where every token has ended. -/
  ends : Char → Bool

namespace Lexer

variable {τ : Type} (l : Lexer τ)

/-- The fuel bounds the number of steps, each of which takes a character at least. -/
def scan : Nat → List Char → Option (List τ)
  | _, [] => some []
  | 0, _ :: _ => none
  | fuel + 1, c :: rest =>
      match l.step c rest with
      | some (t, rest) => (scan fuel rest).map (t.toList ++ ·)
      | none => none

def tokens? (cs : List Char) : Option (List τ) := l.scan cs.length cs

/-- The text is at its end or goes on where every token has ended. -/
def Ends (rest : List Char) : Prop := ∀ c ∈ rest.head?, l.ends c = true

/-- The text has these tokens, whatever follows once they have ended. -/
def Reads (cs : List Char) (ts : List τ) : Prop :=
  ∀ (fuel : Nat) (rest : List Char) (more : List τ), l.Ends rest →
    l.scan fuel rest = some more → l.scan (fuel + cs.length) (cs ++ rest) = some (ts ++ more)

variable {l} {fuel : Nat} {c : Char} {cs xs ys rest : List Char} {t : τ} {ts us : List τ}

theorem scan_cons {t : Option τ} (h : l.step c cs = some (t, rest)) :
    l.scan (fuel + 1) (c :: cs) = (l.scan fuel rest).map (t.toList ++ ·) := by
  rw [scan, h]

theorem scan_mono {fuel' : Nat} (h : l.scan fuel cs = some ts) (hle : fuel ≤ fuel') :
    l.scan fuel' cs = some ts := by
  induction fuel generalizing cs ts fuel' with
  | zero =>
      match cs, h with
      | [], h => simpa [scan] using h
  | succ fuel ih =>
      obtain ⟨more, rfl⟩ : ∃ more, fuel' = more + 1 := ⟨fuel' - 1, by omega⟩
      match cs, h with
      | [], h => simpa [scan] using h
      | c :: cs, h =>
          rw [scan] at h
          split at h
          · rename_i t rest hstep
            obtain ⟨others, hothers, rfl⟩ := Option.map_eq_some_iff.mp h
            rw [scan_cons hstep, ih hothers (by omega)]
            rfl
          · cases h

theorem Reads.tokens?_eq (h : l.Reads cs ts) : l.tokens? cs = some ts := by
  have hread := h 0 [] [] (by simp [Ends]) rfl
  rwa [List.append_nil, List.append_nil, Nat.zero_add] at hread

theorem reads_nil : l.Reads [] [] := fun _ _ _ _ hscan => hscan

/-- A character that is passed over whatever follows it. -/
theorem Reads.pass (hstep : ∀ rest, l.step c rest = some (none, rest)) (h : l.Reads cs ts) :
    l.Reads (c :: cs) ts := by
  intro fuel rest more hrest hscan
  rw [List.length_cons, ← Nat.add_assoc, List.cons_append, scan_cons (hstep (cs ++ rest)),
    h fuel rest more hrest hscan]
  rfl

/-- A character that is a token whatever follows it. -/
theorem Reads.take (hstep : ∀ rest, l.step c rest = some (some t, rest)) (h : l.Reads cs ts) :
    l.Reads (c :: cs) (t :: ts) := by
  intro fuel rest more hrest hscan
  rw [List.length_cons, ← Nat.add_assoc, List.cons_append, scan_cons (hstep (cs ++ rest)),
    h fuel rest more hrest hscan]
  rfl

theorem reads_token
    (hstep : ∀ rest, l.Ends rest → l.step c (cs ++ rest) = some (some t, rest)) :
    l.Reads (c :: cs) [t] := by
  intro fuel rest more hrest hscan
  rw [List.length_cons, ← Nat.add_assoc, List.cons_append, scan_cons (hstep rest hrest),
    scan_mono hscan (Nat.le_add_right fuel cs.length)]
  rfl

theorem Reads.append (hxs : l.Reads xs ts) (hc : l.ends c = true) (hys : l.Reads (c :: ys) us) :
    l.Reads (xs ++ c :: ys) (ts ++ us) := by
  intro fuel rest more hrest hscan
  have hends : l.Ends (c :: (ys ++ rest)) := by
    simpa [Ends] using hc
  have hread := hxs _ (c :: ys ++ rest) _ hends (hys fuel rest more hrest hscan)
  rw [List.append_assoc, List.append_assoc, List.length_append, Nat.add_comm xs.length,
    ← Nat.add_assoc]
  exact hread

end Lexer

end SelectionCompiler
