import SelectionCompiler.Proofs.Query.Token
import SelectionCompiler.Proofs.Text.Reader
import SelectionCompiler.Query.Arguments

/-!
Values and arguments of queries. The reader follows the grammar: an argument is a name, a
colon and a value, and what comes next belongs to the next argument. It reads a value back
from its tokens. The literal of a JSON value whose keys are names has the tokens of one
value, and no two JSON values share it.
-/

namespace SelectionCompiler

namespace Query

open Reader

/-- Values as they are written. Booleans, null and enum values are all bare names. -/
inductive Value where
  | var (name : String)
  | number (literal : Json.Number.Literal)
  | string (text : String)
  | block (raw : String)
  | name (text : String)
  | list (items : List Value)
  | object (fields : List (String × Value))

/-! ### The reader -/

def name : Reader Token String := do
  match ← next with
  | .name text => return text
  | _ => refuse

/-- A name and a colon before an item. -/
def keyed {α : Type} (item : Reader Token α) : Reader Token (String × α) := do
  let key ← name
  expect (.punct ':')
  return (key, ← item)

/-- The fuel bounds the nesting. -/
def valueWithin : Nat → Reader Token Value
  | 0 => refuse
  | fuel + 1 => do
      match ← next with
      | .name text => return .name text
      | .number literal => return .number literal
      | .string text => return .string text
      | .block raw => return .block raw
      | .punct '$' => return .var (← name)
      | .punct '[' => return .list (← untilClose (.punct ']') (valueWithin fuel))
      | .punct '{' => return .object (← untilClose (.punct '}') (keyed (valueWithin fuel)))
      | _ => refuse

def value : Reader Token Value := do valueWithin (← bound)

def arguments : Reader Token (List (String × Value)) := do
  expect (.punct '(')
  someUntilClose (.punct ')') (keyed value)

/-- What the reader reads off a text from end to end. -/
def readAll? {α : Type} (r : Reader Token α) (text : String) : Option α :=
  match (Token.ofText? text).bind r with
  | some (x, []) => some x
  | _ => none

/-! ### Tokens of values -/

mutual

def Value.tokens : Value → List Token
  | .var name => [.punct '$', .name name]
  | .number literal => [.number literal]
  | .string text => [.string text]
  | .block raw => [.block raw]
  | .name text => [.name text]
  | .list items => .punct '[' :: (listTokens items ++ [.punct ']'])
  | .object fields => .punct '{' :: (fieldTokens fields ++ [.punct '}'])

def listTokens : List Value → List Token
  | [] => []
  | v :: rest => v.tokens ++ listTokens rest

def fieldTokens : List (String × Value) → List Token
  | [] => []
  | (key, v) :: rest => .name key :: .punct ':' :: (v.tokens ++ fieldTokens rest)

end

/-- The tokens of a value under a key. -/
def keyedTokens (e : String × Value) : List Token := .name e.1 :: .punct ':' :: e.2.tokens

theorem listTokens_eq_flatMap (items : List Value) :
    listTokens items = items.flatMap Value.tokens := by
  induction items with
  | nil => rfl
  | cons v rest ih => rw [listTokens, ih, List.flatMap_cons]

theorem fieldTokens_eq_flatMap (fields : List (String × Value)) :
    fieldTokens fields = fields.flatMap keyedTokens := by
  induction fields with
  | nil => rfl
  | cons e rest ih =>
      obtain ⟨key, v⟩ := e
      rw [fieldTokens, ih, List.flatMap_cons]
      rfl

theorem exists_tokens_eq_cons (v : Value) :
    ∃ t ts, v.tokens = t :: ts ∧ t ≠ .punct ']' := by
  cases v <;> exact ⟨_, _, rfl, by simp⟩

theorem takes_name (text : String) : Takes name [Token.name text] text := fun _ => rfl

theorem takes_keyed_before {α : Type} {p : Token → Prop} {item : Reader Token α} {key : String}
    {ts : List Token} {x : α} (h : TakesBefore p item ts x) :
    TakesBefore p (keyed item) (.name key :: .punct ':' :: ts) (key, x) := by
  have hitem : TakesBefore p (do return (key, ← item)) ts (key, x) := h.map
  exact (takes_name key).bind_before ((takes_expect (Token.punct ':')).bind_before hitem)

theorem takes_keyed {item : Reader Token Value} {e : String × Value}
    (h : Takes item e.2.tokens e.2) : Takes (keyed item) (keyedTokens e) e := by
  have hitem : Takes (do return (e.1, ← item)) e.2.tokens e := h.map
  exact Takes.bind (takes_name e.1) (Takes.bind (takes_expect (Token.punct ':')) hitem)

mutual

theorem takes_valueWithin : ∀ (v : Value) (fuel : Nat), v.tokens.length ≤ fuel →
    Takes (valueWithin fuel) v.tokens v
  | v, 0, h => by
      obtain ⟨t, ts, htokens, _⟩ := exists_tokens_eq_cons v
      simp [htokens] at h
  | .var _, _ + 1, _ | .number _, _ + 1, _ | .string _, _ + 1, _ | .block _, _ + 1, _
  | .name _, _ + 1, _ => fun _ => rfl
  | .list items, fuel + 1, h => by
      have hlength : (listTokens items).length ≤ fuel := by
        simp only [Value.tokens, List.length_cons, List.length_append, List.length_nil] at h
        omega
      have hitems : Takes (untilClose (.punct ']') (valueWithin fuel))
          (items.flatMap Value.tokens ++ [.punct ']']) items :=
        takes_untilClose (takes_valueWithin_items items fuel hlength)
          fun v _ => exists_tokens_eq_cons v
      rw [Value.tokens, listTokens_eq_flatMap]
      exact Takes.bind (takes_next (Token.punct '[')) hitems.map
  | .object fields, fuel + 1, h => by
      have hlength : (fieldTokens fields).length ≤ fuel := by
        simp only [Value.tokens, List.length_cons, List.length_append, List.length_nil] at h
        omega
      have hfields : Takes (untilClose (.punct '}') (keyed (valueWithin fuel)))
          (fields.flatMap keyedTokens ++ [.punct '}']) fields :=
        takes_untilClose
          (fun e he => takes_keyed (takes_valueWithin_fields fields fuel hlength e he))
          fun e _ => ⟨_, _, rfl, by simp⟩
      rw [Value.tokens, fieldTokens_eq_flatMap]
      exact Takes.bind (takes_next (Token.punct '{')) hfields.map

theorem takes_valueWithin_items : ∀ (items : List Value) (fuel : Nat),
    (listTokens items).length ≤ fuel → ∀ v ∈ items, Takes (valueWithin fuel) v.tokens v
  | [], _, _ => by simp
  | v :: rest, fuel, h => by
      rw [listTokens, List.length_append] at h
      have hv := takes_valueWithin v fuel (by omega)
      have hrest := takes_valueWithin_items rest fuel (by omega)
      exact List.forall_mem_cons.mpr ⟨hv, hrest⟩

theorem takes_valueWithin_fields : ∀ (fields : List (String × Value)) (fuel : Nat),
    (fieldTokens fields).length ≤ fuel → ∀ e ∈ fields, Takes (valueWithin fuel) e.2.tokens e.2
  | [], _, _ => by simp
  | (key, v) :: rest, fuel, h => by
      rw [fieldTokens, List.length_cons, List.length_cons, List.length_append] at h
      have hv := takes_valueWithin v fuel (by omega)
      have hrest := takes_valueWithin_fields rest fuel (by omega)
      exact List.forall_mem_cons.mpr ⟨hv, hrest⟩

end

theorem takes_value (v : Value) : Takes value v.tokens v := by
  intro rest
  change valueWithin ((v.tokens ++ rest).length + 1) (v.tokens ++ rest) = _
  refine takes_valueWithin v _ ?_ rest
  rw [List.length_append]
  omega

theorem arguments_open (ts : List Token) :
    arguments (.punct '(' :: ts) = someUntilClose (.punct ')') (keyed value) ts := rfl

theorem takes_arguments (e : String × Value) (rest : List (String × Value)) :
    Takes arguments (.punct '(' :: ((e :: rest).flatMap keyedTokens ++ [.punct ')'])) (e :: rest) :=
  takes_someUntilClose (fun e _ => takes_keyed (takes_value e.2)) fun _ _ => ⟨_, _, rfl, by simp⟩

/-! ### Refusals -/

theorem keyed_eq_none_of_ne_colon {α : Type} {item : Reader Token α} {ts : List Token}
    (h : ts.head? ≠ some (.punct ':')) (key : String) : keyed item (.name key :: ts) = none := by
  change (expect (Token.punct ':') ts).bind _ = none
  rw [expect_apply, if_neg h, Option.bind_none]

theorem keyed_punct {α : Type} {item : Reader Token α} (c : Char) (ts : List Token) :
    keyed item (.punct c :: ts) = none := rfl

theorem keyed_value_close (key : String) (ts : List Token) :
    keyed value (.name key :: .punct ':' :: .punct ')' :: ts) = none := rfl

theorem keyed_value_name (key text : String) (ts : List Token) :
    keyed value (.name key :: .punct ':' :: .name text :: ts) = some ((key, .name text), ts) :=
  takes_keyed (e := (key, .name text)) (takes_value (.name text)) ts

/-! ### Texts -/

theorem readAll?_eq {α : Type} {r : Reader Token α} {x : α} {ts : List Token} {text : String}
    (htext : Token.ofText? text = some ts) (h : Takes r ts x) : readAll? r text = some x := by
  have hread := h []
  rw [List.append_nil] at hread
  rw [readAll?, htext, Option.bind_some, hread]

end Query

/-! ### JSON values as literals -/

namespace Query.Value

mutual

/-- The value that a JSON value has as a literal. -/
def ofJson : Json → Value
  | .null => .name "null"
  | .bool b => .name (Json.boolText b)
  | .num n => .number n.literal
  | .str s => .string s
  | .arr items => .list (ofItems items)
  | .obj members => .object (ofMembers members)

def ofItems : List Json → List Value
  | [] => []
  | v :: rest => ofJson v :: ofItems rest

def ofMembers : List (String × Json) → List (String × Value)
  | [] => []
  | (key, v) :: rest => (key, ofJson v) :: ofMembers rest

end

theorem ofItems_eq_map (items : List Json) : ofItems items = items.map ofJson := by
  induction items with
  | nil => rfl
  | cons v rest ih => rw [ofItems, ih, List.map_cons]

theorem ofMembers_eq_map (members : List (String × Json)) :
    ofMembers members = members.map fun m => (m.1, ofJson m.2) := by
  induction members with
  | nil => rfl
  | cons m rest ih =>
      obtain ⟨key, v⟩ := m
      rw [ofMembers, ih, List.map_cons]

theorem boolText_injective {a b : Bool} (h : Json.boolText a = Json.boolText b) : a = b := by
  revert a b
  decide

theorem boolText_ne_null (b : Bool) : Json.boolText b ≠ "null" := by
  revert b
  decide

mutual

theorem ofJson_injective : ∀ {v w : Json}, ofJson v = ofJson w → v = w
  | .null, .null, _ => rfl
  | .bool a, .bool b, h => by rw [boolText_injective (name.inj h)]
  | .num m, .num n, h => by rw [Json.Number.literal_injective (number.inj h)]
  | .str s, .str t, h => by rw [string.inj h]
  | .arr items, .arr others, h => by rw [ofItems_injective (list.inj h)]
  | .obj members, .obj others, h => by rw [ofMembers_injective (object.inj h)]
  | .null, .bool b, h => absurd (name.inj h).symm (boolText_ne_null b)
  | .bool b, .null, h => absurd (name.inj h) (boolText_ne_null b)

theorem ofItems_injective : ∀ {items others : List Json}, ofItems items = ofItems others →
    items = others
  | [], [], _ => rfl
  | v :: items, w :: others, h => by
      rw [ofJson_injective (List.cons.inj h).1, ofItems_injective (List.cons.inj h).2]

theorem ofMembers_injective : ∀ {members others : List (String × Json)},
    ofMembers members = ofMembers others → members = others
  | [], [], _ => rfl
  | (key, v) :: members, (key', w) :: others, h => by
      obtain ⟨hhead, hrest⟩ := List.cons.inj h
      obtain ⟨rfl, hv⟩ := Prod.mk.inj hhead
      rw [ofJson_injective hv, ofMembers_injective hrest]

end

end Query.Value

namespace Json

mutual

/-- Whether every key of an object in the value is a name. -/
def isKeyedByNames : Json → Bool
  | .arr items => itemsKeyedByNames items
  | .obj members => membersKeyedByNames members
  | _ => true

def itemsKeyedByNames : List Json → Bool
  | [] => true
  | v :: rest => v.isKeyedByNames && itemsKeyedByNames rest

def membersKeyedByNames : List (String × Json) → Bool
  | [] => true
  | (key, v) :: rest => decide (Sdl.IsName key) && v.isKeyedByNames && membersKeyedByNames rest

end

open Query Query.Token

theorem isName_boolText (b : Bool) : Sdl.IsName (boolText b) := by
  revert b
  decide

theorem literalItems_eq_intercalate (items : List Json) :
    literalItems items = ",".intercalate (items.map literal) := by
  induction items with
  | nil => rfl
  | cons v rest ih =>
      cases rest with
      | nil => simp [literalItems]
      | cons w rest => simp [literalItems, ih, String.intercalate_cons_cons]

theorem literalMembers_eq_intercalate (members : List (String × Json)) :
    literalMembers members = ",".intercalate (members.map fun m => m.1 ++ ":" ++ m.2.literal) := by
  induction members with
  | nil => rfl
  | cons m rest ih =>
      cases rest with
      | nil => simp [literalMembers]
      | cons m' rest => simp [literalMembers, ih, String.intercalate_cons_cons]

/-- A text after a name and a colon. -/
theorem reads_keyed {key text : String} {ts : List Query.Token} (hkey : Sdl.IsName key)
    (h : lexer.Reads text.toList ts) :
    lexer.Reads (key ++ ":" ++ text).toList (.name key :: .punct ':' :: ts) := by
  have htext : (key ++ ":" ++ text).toList = key.toList ++ ':' :: text.toList := by
    simp
  rw [htext]
  exact (reads_name hkey).append rfl (reads_punct rfl h)

theorem reads_commas {α : Type} {part : α → String} {write : α → List Query.Token} {xs : List α}
    (h : ∀ x ∈ xs, lexer.Reads (part x).toList (write x)) :
    lexer.Reads (",".intercalate (xs.map part)).toList (xs.flatMap write) :=
  reads_intercalate (by decide) (by decide +kernel) h

mutual

theorem reads_literal : ∀ v : Json, v.isKeyedByNames = true →
    lexer.Reads v.literal.toList (Value.ofJson v).tokens
  | .null, _ => reads_name (by decide : Sdl.IsName "null")
  | .bool b, _ => reads_name (isName_boolText b)
  | .num n, _ => reads_number n
  | .str s, _ => reads_quote s
  | .arr items, h => by
      have htext : (arr items).literal.toList =
          '[' :: ((",".intercalate (items.map literal)).toList ++ [']']) := by
        simp [literal, literalItems_eq_intercalate]
      have hitems := reads_commas (reads_items items h)
      rw [htext, Value.ofJson, Value.tokens, listTokens_eq_flatMap, Value.ofItems_eq_map,
        List.flatMap_map]
      exact reads_punct rfl (hitems.append rfl (reads_punct rfl Lexer.reads_nil))
  | .obj members, h => by
      have htext : (obj members).literal.toList = '{' :: ((",".intercalate
          (members.map fun m => m.1 ++ ":" ++ m.2.literal)).toList ++ ['}']) := by
        simp [literal, literalMembers_eq_intercalate]
      have hmembers := reads_commas (reads_members members h)
      rw [htext, Value.ofJson, Value.tokens, fieldTokens_eq_flatMap, Value.ofMembers_eq_map,
        List.flatMap_map]
      exact reads_punct rfl (hmembers.append rfl (reads_punct rfl Lexer.reads_nil))

theorem reads_items : ∀ items : List Json, itemsKeyedByNames items = true →
    ∀ v ∈ items, lexer.Reads v.literal.toList (Value.ofJson v).tokens
  | [], _ => by simp
  | v :: rest, h => by
      rw [itemsKeyedByNames, Bool.and_eq_true] at h
      exact List.forall_mem_cons.mpr ⟨reads_literal v h.1, reads_items rest h.2⟩

theorem reads_members : ∀ members : List (String × Json), membersKeyedByNames members = true →
    ∀ m ∈ members, lexer.Reads (m.1 ++ ":" ++ m.2.literal).toList
      (keyedTokens (m.1, Value.ofJson m.2))
  | [], _ => by simp
  | (key, v) :: rest, h => by
      rw [membersKeyedByNames, Bool.and_eq_true, Bool.and_eq_true, decide_eq_true_eq] at h
      exact List.forall_mem_cons.mpr
        ⟨reads_keyed h.1.1 (reads_literal v h.1.2), reads_members rest h.2⟩

end

end Json

end SelectionCompiler
