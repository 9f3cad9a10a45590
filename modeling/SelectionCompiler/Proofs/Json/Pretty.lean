import SelectionCompiler.Proofs.Json.Text

/-!
The pretty text of a value spells that value as its compact text does: what it has besides is
blanks, which begin where no number goes on.
-/

namespace SelectionCompiler.Json

open Token

variable {cs : List Char} {ts : List Token}

theorem reads_blank {c : Char} (hblank : isBlank c = true) (h : lexer.Reads cs ts) :
    lexer.Reads (c :: cs) ts :=
  h.pass fun rest => by rw [step_lexer, if_pos hblank]

theorem toList_pushn (s : String) (c : Char) (n : Nat) :
    (s.pushn c n).toList = s.toList ++ List.replicate n c := by
  rw [String.pushn_eq_repeat_push]
  induction n with
  | zero => simp [Nat.repeat]
  | succ n ih => rw [Nat.repeat, String.toList_push, ih, List.append_assoc, ← List.replicate_succ']

theorem toList_newline (level : Nat) :
    (newline level).toList = '\n' :: List.replicate (2 * level) ' ' := by
  simp [newline, toList_pushn]

theorem ends_newline : lexer.ends '\n' = true := rfl

/-- A line end and the blanks behind it. -/
theorem reads_newline (level : Nat) (h : lexer.Reads cs ts) :
    lexer.Reads ('\n' :: (List.replicate (2 * level) ' ' ++ cs)) ts := by
  apply reads_blank rfl
  induction 2 * level with
  | zero => exact h
  | succ n ih => exact reads_blank rfl ih

mutual

theorem reads_prettyAt : ∀ (v : Json) (level : Nat), v.isExact = true →
    lexer.Reads (v.prettyAt level).toList v.tokens
  | .null, _, h => by
      rw [prettyAt]
      exact reads_compact .null h
  | .bool b, _, h => by
      rw [prettyAt]
      exact reads_compact (.bool b) h
  | .num n, _, h => by
      rw [prettyAt]
      exact reads_compact (.num n) h
  | .str s, _, h => by
      rw [prettyAt]
      exact reads_compact (.str s) h
  | .arr [], _, _ => by
      rw [prettyAt, if_pos List.isEmpty_nil]
      show lexer.Reads ['[', ']'] [.openBracket, .closeBracket]
      exact reads_cons rfl (fun _ => rfl) (reads_punct rfl fun _ => rfl)
  | .obj [], _, _ => by
      rw [prettyAt, if_pos List.isEmpty_nil]
      show lexer.Reads ['{', '}'] [.openBrace, .closeBrace]
      exact reads_cons rfl (fun _ => rfl) (reads_punct rfl fun _ => rfl)
  | .arr (v :: rest), level, h => by
      have htext : ((arr (v :: rest)).prettyAt level).toList =
          '[' :: ((prettyItems (level + 1) (v :: rest)).toList ++
            '\n' :: (List.replicate (2 * level) ' ' ++ [']'])) := by
        simp [prettyAt, toList_newline]
      have hitems := reads_prettyItems (v :: rest) (level + 1) (by simpa [isExact] using h)
      have hclose := reads_newline level (reads_punct (c := ']') rfl fun _ => rfl)
      rw [htext]
      exact reads_cons rfl (fun _ => rfl) (hitems.append ends_newline hclose)
  | .obj (m :: rest), level, h => by
      have htext : ((obj (m :: rest)).prettyAt level).toList =
          '{' :: ((prettyMembers (level + 1) (m :: rest)).toList ++
            '\n' :: (List.replicate (2 * level) ' ' ++ ['}'])) := by
        simp [prettyAt, toList_newline]
      have hmembers := reads_prettyMembers (m :: rest) (level + 1) (by simpa [isExact] using h)
      have hclose := reads_newline level (reads_punct (c := '}') rfl fun _ => rfl)
      rw [htext]
      exact reads_cons rfl (fun _ => rfl) (hmembers.append ends_newline hclose)

theorem reads_prettyItems : ∀ (items : List Json) (level : Nat), itemsExact items = true →
    lexer.Reads (prettyItems level items).toList (itemTokens items)
  | [], _, _ => Lexer.reads_nil
  | [v], level, h => by
      have htext : (prettyItems level [v]).toList =
          '\n' :: (List.replicate (2 * level) ' ' ++ (v.prettyAt level).toList) := by
        simp [prettyItems, toList_newline]
      rw [htext]
      exact reads_newline level (reads_prettyAt v level (by simpa [itemsExact] using h))
  | v :: w :: rest, level, h => by
      rw [itemsExact, Bool.and_eq_true] at h
      have htext : (prettyItems level (v :: w :: rest)).toList =
          '\n' :: (List.replicate (2 * level) ' ' ++
            ((v.prettyAt level).toList ++ ',' :: (prettyItems level (w :: rest)).toList)) := by
        simp [prettyItems, toList_newline]
      have hrest := reads_prettyItems (w :: rest) level h.2
      rw [htext]
      exact reads_newline level
        ((reads_prettyAt v level h.1).append rfl (reads_cons rfl (fun _ => rfl) hrest))

theorem reads_prettyMembers : ∀ (members : List (String × Json)) (level : Nat),
    membersExact members = true →
      lexer.Reads (prettyMembers level members).toList (memberTokens members)
  | [], _, _ => Lexer.reads_nil
  | [(key, v)], level, h => by
      have htext : (prettyMembers level [(key, v)]).toList =
          '\n' :: (List.replicate (2 * level) ' ' ++
            ((quote key).toList ++ ':' :: ' ' :: (v.prettyAt level).toList)) := by
        simp [prettyMembers, toList_newline]
      have hvalue := reads_prettyAt v level (by simpa [membersExact] using h)
      rw [htext]
      exact reads_newline level (reads_member (reads_blank rfl hvalue))
  | (key, v) :: m :: rest, level, h => by
      rw [membersExact, Bool.and_eq_true] at h
      have htext : (prettyMembers level ((key, v) :: m :: rest)).toList =
          '\n' :: (List.replicate (2 * level) ' ' ++
            ((quote key).toList ++ ':' :: ' ' :: ((v.prettyAt level).toList ++
              ',' :: (prettyMembers level (m :: rest)).toList))) := by
        simp [prettyMembers, toList_newline]
      have hrest := reads_prettyMembers (m :: rest) level h.2
      rw [htext]
      exact reads_newline level (reads_member (reads_blank rfl
        ((reads_prettyAt v level h.1).append rfl (reads_cons rfl (fun _ => rfl) hrest))))

end

/-- The pretty text of a value spells the value. -/
theorem spells_pretty {v : Json} (h : v.isExact = true) : Spells v.pretty v :=
  (ofText?_eq_lexer _).trans (reads_prettyAt v 0 h).tokens?_eq

end SelectionCompiler.Json
