import SelectionCompiler.Json.Parser
import Mathlib.Tactic.Common

/-!
The tokens of a JSON value, and reading the value back from them. Reading takes two
calls a token at most and opens as many containers inside one another as the
value is nested, so a text that spells a value within the limit of nesting always
has that value.
-/

namespace SelectionCompiler.Json

mutual

def tokens : Json → List Token
  | .null => [.null]
  | .bool b => [.bool b]
  | .num n => [.num n]
  | .str s => [.str s]
  | .arr items => .openBracket :: (itemTokens items ++ [.closeBracket])
  | .obj members => .openBrace :: (memberTokens members ++ [.closeBrace])

def itemTokens : List Json → List Token
  | [] => []
  | [v] => v.tokens
  | v :: w :: rest => v.tokens ++ .comma :: itemTokens (w :: rest)

def memberTokens : List (String × Json) → List Token
  | [] => []
  | [(key, v)] => .str key :: .colon :: v.tokens
  | (key, v) :: m :: rest => .str key :: .colon :: (v.tokens ++ .comma :: memberTokens (m :: rest))

end

/-- The text spells the value: between its tokens there is nothing that matters. -/
def Spells (text : String) (v : Json) : Prop := Token.ofText? text.toList = some v.tokens

deriving instance DecidableEq for Token

instance (text : String) (v : Json) : Decidable (Spells text v) :=
  inferInstanceAs (Decidable (Token.ofText? text.toList = some v.tokens))

theorem exists_tokens_eq_cons (v : Json) :
    ∃ t others, v.tokens = t :: others ∧ t ≠ .closeBracket := by
  cases v <;> exact ⟨_, _, rfl, by simp⟩

theorem exists_itemTokens_eq_cons (v : Json) (rest : List Json) :
    ∃ t others, itemTokens (v :: rest) = t :: others ∧ t ≠ .closeBracket := by
  obtain ⟨t, others, htokens, hne⟩ := exists_tokens_eq_cons v
  cases rest with
  | nil => exact ⟨t, others, htokens, hne⟩
  | cons w rest => exact ⟨t, _, by rw [itemTokens, htokens]; rfl, hne⟩

theorem exists_memberTokens_eq_cons (m : String × Json) (rest : List (String × Json)) :
    ∃ others, memberTokens (m :: rest) = .str m.1 :: others := by
  cases rest <;> exact ⟨_, rfl⟩

/-! ### One step of reading -/

section

variable {fuel room : Nat} {v : Json} {ts rest rest' : List Token}

theorem readItems_last (h : readValue fuel room ts = some (v, .closeBracket :: rest)) :
    readItems (fuel + 1) room ts = some ([v], rest) := by
  rw [readItems, h]

theorem readItems_more {items : List Json}
    (h : readValue fuel room ts = some (v, .comma :: rest))
    (hitems : readItems fuel room rest = some (items, rest')) :
    readItems (fuel + 1) room ts = some (v :: items, rest') := by
  rw [readItems, h]
  simp only [hitems, Option.map_some]

theorem readMembers_last {key : String}
    (h : readValue fuel room ts = some (v, .closeBrace :: rest)) :
    readMembers (fuel + 1) room (.str key :: .colon :: ts) = some ([(key, v)], rest) := by
  rw [readMembers]
  simp only [h]

theorem readMembers_more {key : String} {members : List (String × Json)}
    (h : readValue fuel room ts = some (v, .comma :: rest))
    (hmembers : readMembers fuel room rest = some (members, rest')) :
    readMembers (fuel + 1) room (.str key :: .colon :: ts) = some ((key, v) :: members, rest') := by
  rw [readMembers]
  simp only [h, hmembers, Option.map_some]

theorem readValue_openBracket {items : List Json} (hne : ∀ others, ts ≠ .closeBracket :: others)
    (h : readItems fuel room ts = some (items, rest)) :
    readValue (fuel + 1) (room + 1) (.openBracket :: ts) = some (.arr items, rest) := by
  rw [readValue, h, Option.map_some]
  exact hne

theorem readValue_openBrace {members : List (String × Json)}
    (hne : ∀ others, ts ≠ .closeBrace :: others)
    (h : readMembers fuel room ts = some (members, rest)) :
    readValue (fuel + 1) (room + 1) (.openBrace :: ts) = some (.obj members, rest) := by
  rw [readValue, h, Option.map_some]
  exact hne

end

/-! ### Whole values -/

mutual

theorem readValue_tokens : ∀ (v : Json) {fuel room : Nat} (rest : List Token),
    2 * v.tokens.length ≤ fuel → v.nesting ≤ room →
      readValue fuel room (v.tokens ++ rest) = some (v, rest)
  | v, 0, _, _, hfuel, _ => by
      obtain ⟨t, others, htokens, _⟩ := exists_tokens_eq_cons v
      simp [htokens] at hfuel
  | .null, _ + 1, _, _, _, _ => rfl
  | .bool _, _ + 1, _, _, _, _ => rfl
  | .num _, _ + 1, _, _, _, _ => rfl
  | .str _, _ + 1, _, _, _, _ => rfl
  | .arr _, _ + 1, 0, _, _, hroom => by simp [nesting] at hroom
  | .obj _, _ + 1, 0, _, _, hroom => by simp [nesting] at hroom
  | .arr [], _ + 1, _ + 1, _, _, _ => rfl
  | .obj [], _ + 1, _ + 1, _, _, _ => rfl
  | .arr (v :: others), fuel + 1, room + 1, rest, hfuel, hroom => by
      obtain ⟨t, _, htokens, hne⟩ := exists_itemTokens_eq_cons v others
      have hitems : readItems fuel room (itemTokens (v :: others) ++ .closeBracket :: rest) =
          some (v :: others, rest) :=
        readItems_itemTokens v others rest (by simp [tokens] at hfuel; omega)
          (by simpa [nesting] using hroom)
      rw [tokens, List.cons_append, List.append_assoc]
      refine readValue_openBracket ?_ hitems
      simp [htokens, hne]
  | .obj ((key, v) :: others), fuel + 1, room + 1, rest, hfuel, hroom => by
      obtain ⟨_, htokens⟩ := exists_memberTokens_eq_cons (key, v) others
      have hmembers : readMembers fuel room (memberTokens ((key, v) :: others) ++
          .closeBrace :: rest) = some ((key, v) :: others, rest) :=
        readMembers_memberTokens key v others rest (by simp [tokens] at hfuel; omega)
          (by simpa [nesting] using hroom)
      rw [tokens, List.cons_append, List.append_assoc]
      refine readValue_openBrace ?_ hmembers
      simp [htokens]

theorem readItems_itemTokens : ∀ (v : Json) (others : List Json) {fuel room : Nat}
    (rest : List Token), 2 * (itemTokens (v :: others)).length < fuel →
      itemsNesting (v :: others) ≤ room →
        readItems fuel room (itemTokens (v :: others) ++ .closeBracket :: rest) =
          some (v :: others, rest)
  | _, _, 0, _, _, hfuel, _ => by simp at hfuel
  | v, [], fuel + 1, room, rest, hfuel, hroom =>
      readItems_last (readValue_tokens v _ (by simp [itemTokens] at hfuel; omega)
        (by simpa [itemsNesting] using hroom))
  | v, w :: others, fuel + 1, room, rest, hfuel, hroom => by
      simp only [itemTokens, List.length_append, List.length_cons] at hfuel
      simp only [itemsNesting] at hroom
      rw [itemTokens, List.append_assoc, List.cons_append]
      refine readItems_more (readValue_tokens v _ (by omega) (by omega)) ?_
      exact readItems_itemTokens w others rest (by omega) (by simp only [itemsNesting]; omega)

theorem readMembers_memberTokens : ∀ (key : String) (v : Json) (others : List (String × Json))
    {fuel room : Nat} (rest : List Token),
      2 * (memberTokens ((key, v) :: others)).length < fuel →
        membersNesting ((key, v) :: others) ≤ room →
          readMembers fuel room (memberTokens ((key, v) :: others) ++ .closeBrace :: rest) =
            some ((key, v) :: others, rest)
  | _, _, _, 0, _, _, hfuel, _ => by simp at hfuel
  | key, v, [], fuel + 1, room, rest, hfuel, hroom =>
      readMembers_last (readValue_tokens v _ (by simp [memberTokens] at hfuel; omega)
        (by simpa [membersNesting] using hroom))
  | key, v, (key', w) :: others, fuel + 1, room, rest, hfuel, hroom => by
      simp only [memberTokens, List.length_append, List.length_cons] at hfuel
      simp only [membersNesting] at hroom
      rw [memberTokens, List.cons_append, List.cons_append, List.append_assoc, List.cons_append]
      refine readMembers_more (readValue_tokens v _ (by omega) (by omega)) ?_
      exact readMembers_memberTokens key' w others rest (by omega)
        (by simp only [membersNesting]; omega)

end

theorem ofTokens?_tokens {v : Json} (h : v.nesting ≤ maxNesting) : ofTokens? v.tokens = some v := by
  have hread := readValue_tokens v [] (Nat.le_refl (2 * v.tokens.length)) h
  rw [List.append_nil] at hread
  rw [ofTokens?, hread]

theorem Spells.raw?_eq {text : String} {v : Json} (h : Spells text v)
    (hnesting : v.nesting ≤ maxNesting) : raw? text = some v := by
  rw [raw?, h, Option.bind_some, ofTokens?_tokens hnesting]

end SelectionCompiler.Json
