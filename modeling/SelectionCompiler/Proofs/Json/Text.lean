import SelectionCompiler.Json.Printer
import SelectionCompiler.Proofs.Json.Number
import SelectionCompiler.Proofs.Json.Quoted
import SelectionCompiler.Proofs.Json.Tokens
import SelectionCompiler.Proofs.Text.Lexer

/-!
The compact text of a value spells that value, as long as each number in it is the number
of its own text: decimals with more digits than a floating-point number can tell apart are
not. A token is read off in front of any text that could not prolong a number.
-/

namespace SelectionCompiler.Json

open Number

namespace Token

/-- Reading a token at a time, where nothing is kept of what has been read. -/
def lexer : Lexer Token where
  step c rest :=
    if isBlank c then some (none, rest) else (next? (c :: rest)).map fun t => (some t.1, t.2)
  ends c := !(c.isDigit || c == '.' || c == 'e' || c == 'E')

theorem step_lexer (c : Char) (rest : List Char) :
    lexer.step c rest =
      if isBlank c then some (none, rest) else (next? (c :: rest)).map fun t => (some t.1, t.2) :=
  rfl

theorem scan_eq_lexer (seen : List Token) (fuel : Nat) (cs : List Char) :
    scan seen fuel cs = (lexer.scan fuel cs).map (seen.reverse ++ ·) := by
  -- what has been read is put in front at the end here, and step by step there
  induction fuel generalizing seen cs with
  | zero => cases cs <;> simp [scan, Lexer.scan]
  | succ fuel ih =>
      cases cs with
      | nil => simp [scan, Lexer.scan]
      | cons c cs =>
          rw [scan, Lexer.scan, step_lexer]
          split
          · simp [ih]
          · cases next? (c :: cs) <;> simp [ih, Function.comp_def]

theorem ofText?_eq_lexer (cs : List Char) : ofText? cs = lexer.tokens? cs := by
  simp [ofText?, Lexer.tokens?, scan_eq_lexer]

theorem endsLiteral_of_ends {rest : List Char} (h : lexer.Ends rest) : EndsLiteral rest := by
  intro c hc
  have hends := h c hc
  simpa [lexer, and_assoc] using hends

variable {c : Char} {cs : List Char} {t : Token} {ts : List Token}

theorem reads_one (hblank : isBlank c = false)
    (hnext : ∀ rest, EndsLiteral rest → next? (c :: (cs ++ rest)) = some (t, rest)) :
    lexer.Reads (c :: cs) [t] := by
  refine Lexer.reads_token fun rest hrest => ?_
  simp [step_lexer, hblank, hnext rest (endsLiteral_of_ends hrest)]

/-- A token of one character, which needs nothing to end it. -/
theorem reads_cons (hblank : isBlank c = false)
    (hnext : ∀ rest, next? (c :: rest) = some (t, rest)) (h : lexer.Reads cs ts) :
    lexer.Reads (c :: cs) (t :: ts) :=
  h.take fun rest => by simp [step_lexer, hblank, hnext]

theorem reads_punct (hblank : isBlank c = false)
    (hnext : ∀ rest, next? (c :: rest) = some (t, rest)) : lexer.Reads [c] [t] :=
  reads_cons hblank hnext Lexer.reads_nil

/-! ### Single tokens -/

theorem reads_quote (s : String) : lexer.Reads (quote s).toList [.str s] := by
  rw [quote, String.toList_ofList, Quoted.encode]
  refine reads_one (by decide) fun rest _ => ?_
  rw [List.append_assoc, List.singleton_append, next?, Quoted.decode_flatMap_escape]
  simp

theorem next?_eq_number? (hc : c = '-' ∨ c.isDigit = true) (cs : List Char) :
    next? (c :: cs) = (number? (c :: cs)).map fun n => (.num n.1, n.2) := by
  have hne (d : Char) (hd : d ≠ '-') (hdigit : d.isDigit = false) : c ≠ d := by
    rintro rfl
    rcases hc with rfl | hc
    · exact hd rfl
    · simp [hc] at hdigit
  unfold next?
  split <;> first
    | rfl
    | (rename_i heq; exact absurd (List.cons.inj heq).1 (hne _ (by decide) (by decide)))

theorem isBlank_eq_false (hc : c = '-' ∨ c.isDigit = true) : isBlank c = false := by
  rcases hc with rfl | hc
  · rfl
  · cases hblank : isBlank c with
    | false => rfl
    | true =>
        simp only [isBlank, Bool.or_eq_true, beq_iff_eq] at hblank
        rcases hblank with ((rfl | rfl) | rfl) | rfl <;> cases hc

theorem reads_number {n : Number} (h : ofLiteral? n.literal = some n) :
    lexer.Reads (numberText n).toList [.num n] := by
  obtain ⟨c, cs, htext, hc⟩ := (wellFormed_literal n).exists_text_eq_cons
  rw [numberText, String.toList_ofList, ← text_literal, htext]
  refine reads_one (isBlank_eq_false hc) fun rest hrest => ?_
  rw [next?_eq_number? hc, ← List.cons_append, ← htext, number?_eq,
    literal?_append (wellFormed_literal n) hrest, Option.bind_some, h]
  rfl

end Token

/-! ### Values -/

mutual

/-- Whether each number in the value is the number of its own text. -/
def isExact : Json → Bool
  | .num n => ofLiteral? n.literal == some n
  | .arr items => itemsExact items
  | .obj members => membersExact members
  | _ => true

def itemsExact : List Json → Bool
  | [] => true
  | v :: rest => v.isExact && itemsExact rest

def membersExact : List (String × Json) → Bool
  | [] => true
  | (_, v) :: rest => v.isExact && membersExact rest

end

open Token

theorem reads_member {key : String} {cs : List Char} {ts : List Token} (h : lexer.Reads cs ts) :
    lexer.Reads ((quote key).toList ++ ':' :: cs) (.str key :: .colon :: ts) :=
  (reads_quote key).append rfl (reads_cons rfl (fun _ => rfl) h)

mutual

theorem reads_compact : ∀ v : Json, v.isExact = true → lexer.Reads v.compact.toList v.tokens
  | .null, _ => reads_one (by decide) fun _ _ => rfl
  | .bool true, _ => reads_one (by decide) fun _ _ => rfl
  | .bool false, _ => reads_one (by decide) fun _ _ => rfl
  | .num n, h => reads_number (by simpa [isExact] using h)
  | .str s, _ => reads_quote s
  | .arr items, h => by
      have htext : (arr items).compact.toList = '[' :: ((compactItems items).toList ++ [']']) := by
        simp [compact]
      have hitems := reads_compactItems items (by simpa [isExact] using h)
      rw [htext]
      exact reads_cons rfl (fun _ => rfl)
        (hitems.append rfl (reads_punct rfl fun _ => rfl))
  | .obj members, h => by
      have htext : (obj members).compact.toList =
          '{' :: ((compactMembers members).toList ++ ['}']) := by
        simp [compact]
      have hmembers := reads_compactMembers members (by simpa [isExact] using h)
      rw [htext]
      exact reads_cons rfl (fun _ => rfl)
        (hmembers.append rfl (reads_punct rfl fun _ => rfl))

theorem reads_compactItems : ∀ items : List Json, itemsExact items = true →
    lexer.Reads (compactItems items).toList (itemTokens items)
  | [], _ => Lexer.reads_nil
  | [v], h => reads_compact v (by simpa [itemsExact] using h)
  | v :: w :: rest, h => by
      rw [itemsExact, Bool.and_eq_true] at h
      have htext : (compactItems (v :: w :: rest)).toList =
          v.compact.toList ++ ',' :: (compactItems (w :: rest)).toList := by
        simp [compactItems]
      have hrest := reads_compactItems (w :: rest) h.2
      rw [htext]
      exact (reads_compact v h.1).append rfl (reads_cons rfl (fun _ => rfl) hrest)

theorem reads_compactMembers : ∀ members : List (String × Json), membersExact members = true →
    lexer.Reads (compactMembers members).toList (memberTokens members)
  | [], _ => Lexer.reads_nil
  | [(key, v)], h => by
      have htext : (compactMembers [(key, v)]).toList =
          (quote key).toList ++ ':' :: v.compact.toList := by
        simp [compactMembers]
      rw [htext]
      exact reads_member (reads_compact v (by simpa [membersExact] using h))
  | (key, v) :: m :: rest, h => by
      rw [membersExact, Bool.and_eq_true] at h
      have htext : (compactMembers ((key, v) :: m :: rest)).toList = (quote key).toList ++
          ':' :: (v.compact.toList ++ ',' :: (compactMembers (m :: rest)).toList) := by
        simp [compactMembers]
      have hrest := reads_compactMembers (m :: rest) h.2
      rw [htext]
      exact reads_member
        ((reads_compact v h.1).append rfl (reads_cons rfl (fun _ => rfl) hrest))

end

/-- The compact text of a value spells the value. -/
theorem spells_compact {v : Json} (h : v.isExact = true) : Spells v.compact v :=
  (ofText?_eq_lexer _).trans (reads_compact v h).tokens?_eq

end SelectionCompiler.Json
