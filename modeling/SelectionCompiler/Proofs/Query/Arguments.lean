import SelectionCompiler.Proofs.Query.Value

/-!
What argument clauses say. The text of a value in a style has the tokens of one value, but
for enums: there the brackets of lists are left out, so the text has a name for each name in
the value. A clause can therefore be read exactly when every enum value holds one name. A
clause of plain arguments can always be read, and determines its arguments.
-/

namespace SelectionCompiler

namespace Json

mutual

/-- Whether the value is a name, or a list of such values. -/
def isNames : Json → Bool
  | .str s => decide (Sdl.IsName s)
  | .arr items => itemsAreNames items
  | _ => false

def itemsAreNames : List Json → Bool
  | [] => true
  | v :: rest => v.isNames && itemsAreNames rest

end

mutual

/-- The strings in a value, through lists at any depth. -/
def names : Json → List String
  | .str s => [s]
  | .arr items => itemsNames items
  | _ => []

def itemsNames : List Json → List String
  | [] => []
  | v :: rest => v.names ++ itemsNames rest

end

end Json

namespace Query.Value

mutual

/-- The value that a JSON value has with its strings as bare tokens. -/
def ofToken : Json → Value
  | .str s => .name s
  | .arr items => .list (ofTokenItems items)
  | .obj members => ofJson (.obj members)
  | .null => ofJson .null
  | .bool b => ofJson (.bool b)
  | .num n => ofJson (.num n)

def ofTokenItems : List Json → List Value
  | [] => []
  | v :: rest => ofToken v :: ofTokenItems rest

end

end Query.Value

namespace Json

open Query Query.Token

theorem tokenItems_eq_intercalate (bracketed : Bool) (items : List Json) :
    tokenItems bracketed items = ",".intercalate (items.map (token bracketed)) := by
  induction items with
  | nil => rfl
  | cons v rest ih =>
      cases rest with
      | nil => simp [tokenItems]
      | cons w rest => simp [tokenItems, ih, String.intercalate_cons_cons]

theorem itemsNames_eq_flatMap (items : List Json) : itemsNames items = items.flatMap names := by
  induction items with
  | nil => rfl
  | cons v rest ih => rw [itemsNames, ih, List.flatMap_cons]

theorem ofTokenItems_eq_map (items : List Json) :
    Value.ofTokenItems items = items.map Value.ofToken := by
  induction items with
  | nil => rfl
  | cons v rest ih => rw [Value.ofTokenItems, ih, List.map_cons]

mutual

theorem reads_token_bracketed : ∀ v : Json, v.isNames = true →
    lexer.Reads (v.token true).toList (Value.ofToken v).tokens
  | .str s, h => reads_name (of_decide_eq_true h)
  | .arr items, h => by
      have htext : ((arr items).token true).toList =
          '[' :: ((",".intercalate (items.map (token true))).toList ++ [']']) := by
        simp [token, tokenItems_eq_intercalate]
      have hitems := reads_commas (reads_items_bracketed items h)
      rw [htext, Value.ofToken, Value.tokens, listTokens_eq_flatMap, ofTokenItems_eq_map,
        List.flatMap_map]
      exact reads_punct rfl (hitems.append rfl (reads_punct rfl Lexer.reads_nil))

theorem reads_items_bracketed : ∀ items : List Json, itemsAreNames items = true →
    ∀ v ∈ items, lexer.Reads (v.token true).toList (Value.ofToken v).tokens
  | [], _ => by simp
  | v :: rest, h => by
      rw [itemsAreNames, Bool.and_eq_true] at h
      exact List.forall_mem_cons.mpr ⟨reads_token_bracketed v h.1, reads_items_bracketed rest h.2⟩

end

mutual

/-- Without brackets nothing is left of the lists but their names. -/
theorem reads_token_bare : ∀ v : Json, v.isNames = true →
    lexer.Reads (v.token false).toList (v.names.map .name)
  | .str s, h => reads_name (of_decide_eq_true h)
  | .arr items, h => by
      have htext : (arr items).token false = ",".intercalate (items.map (token false)) := by
        simp [token, tokenItems_eq_intercalate]
      rw [htext, names, itemsNames_eq_flatMap, List.map_flatMap]
      exact reads_commas (reads_items_bare items h)

theorem reads_items_bare : ∀ items : List Json, itemsAreNames items = true →
    ∀ v ∈ items, lexer.Reads (v.token false).toList (v.names.map .name)
  | [], _ => by simp
  | v :: rest, h => by
      rw [itemsAreNames, Bool.and_eq_true] at h
      exact List.forall_mem_cons.mpr ⟨reads_token_bare v h.1, reads_items_bare rest h.2⟩

end

end Json

namespace ArgumentStyle

open Query

/-- Whether a value is one that the style is meant for. -/
def suits : ArgumentStyle → Json → Bool
  | .flag, v => v.isNames
  | .enumeration, v => v.isNames
  | .plain, v => v.isKeyedByNames

/-- The tokens of a value in a style. -/
def tokens : ArgumentStyle → Json → List Token
  | .flag, v => (Value.ofToken v).tokens
  | .enumeration, v => v.names.map .name
  | .plain, v => (Value.ofJson v).tokens

theorem reads_render {style : ArgumentStyle} {v : Json} (h : style.suits v = true) :
    Token.lexer.Reads (style.render v).toList (style.tokens v) := by
  cases style with
  | flag => exact Json.reads_token_bracketed v h
  | enumeration => exact Json.reads_token_bare v h
  | plain => exact Json.reads_literal v h

/-- The text of a value is one value, unless an enum holds no name or several. -/
def IsOne (style : ArgumentStyle) (v : Json) : Prop := style = .enumeration → v.names.length = 1

instance (style : ArgumentStyle) (v : Json) : Decidable (style.IsOne v) :=
  inferInstanceAs (Decidable (style = .enumeration → v.names.length = 1))

/-- The value that the text of a value is, where it is one. -/
def value : ArgumentStyle → Json → Value
  | .flag, v => .ofToken v
  | .enumeration, v => .name (v.names.headD "")
  | .plain, v => .ofJson v

theorem tokens_eq_tokens_value {style : ArgumentStyle} {v : Json} (h : style.IsOne v) :
    style.tokens v = (style.value v).tokens := by
  cases style with
  | flag | plain => rfl
  | enumeration =>
      obtain ⟨name, hname⟩ := List.length_eq_one_iff.mp (h rfl)
      simp [tokens, value, Value.tokens, hname]

end ArgumentStyle

namespace Arguments

open Query Reader

/-- The keys of the arguments that have a value are names, and each value is one that its
style is meant for. -/
def WellFormed (a : Arguments) (c : Classification) : Prop :=
  ∀ e ∈ a.present, Sdl.IsName e.1 ∧ (c.styleOf e.1).suits e.2 = true

variable {a b : Arguments} {c : Classification}

instance : Decidable (a.WellFormed c) :=
  inferInstanceAs (Decidable (∀ e ∈ a.present, Sdl.IsName e.1 ∧ (c.styleOf e.1).suits e.2 = true))

theorem clause_of_present_eq_nil (h : a.present = []) : a.clause c = "" := by
  rw [clause, h]
  rfl

def argumentTokens (c : Classification) (e : String × Json) : List Token :=
  .name e.1 :: .punct ':' :: (c.styleOf e.1).tokens e.2

theorem ofText?_clause (h : a.WellFormed c) (hne : a.present ≠ []) :
    Token.ofText? (a.clause c) =
      some (.punct '(' :: (a.present.flatMap (argumentTokens c) ++ [.punct ')'])) := by
  have hparts : Token.lexer.Reads (" ".intercalate (a.present.map fun e =>
      e.1 ++ ":" ++ (c.styleOf e.1).render e.2)).toList (a.present.flatMap (argumentTokens c)) :=
    Token.reads_intercalate (by decide) (by decide +kernel) fun e he =>
      Json.reads_keyed (h e he).1 (ArgumentStyle.reads_render (h e he).2)
  have htext : (a.clause c).toList = '(' :: ((" ".intercalate (a.present.map fun e =>
      e.1 ++ ":" ++ (c.styleOf e.1).render e.2)).toList ++ [')']) := by
    simp [clause, parenthesized, hne]
  rw [Token.ofText?, htext]
  exact (Token.reads_punct rfl
    (hparts.append rfl (Token.reads_punct rfl Lexer.reads_nil))).tokens?_eq

theorem readAll?_clause (h : a.WellFormed c) (hne : a.present ≠ [])
    (hone : ∀ e ∈ a.present, (c.styleOf e.1).IsOne e.2) :
    readAll? arguments (a.clause c) =
      some (a.present.map fun e => (e.1, (c.styleOf e.1).value e.2)) := by
  have htokens : a.present.flatMap (argumentTokens c) =
      (a.present.map fun e => (e.1, (c.styleOf e.1).value e.2)).flatMap keyedTokens := by
    rw [List.flatMap_map]
    refine List.flatMap_congr fun e he => ?_
    rw [argumentTokens, ArgumentStyle.tokens_eq_tokens_value (hone e he)]
    rfl
  have htext := ofText?_clause h hne
  rw [htokens] at htext
  cases hpresent : a.present with
  | nil => exact absurd hpresent hne
  | cons e rest =>
      rw [hpresent, List.map_cons] at htext
      exact readAll?_eq htext (takes_arguments _ _)

/-! ### Clauses that cannot be read -/

theorem head?_argumentTokens (es : List (String × Json)) :
    (es.flatMap (argumentTokens c) ++ [Token.punct ')']).head? ≠ some (.punct ':') := by
  cases es <;> simp [argumentTokens]

/-- Other than one name after a key leaves a colon or a name on its own where an argument
should begin. -/
theorem itemsUntil_names_eq_none {names : List String} (h : names.length ≠ 1) (key : String)
    (es : List (String × Json)) (fuel : Nat) :
    itemsUntil (.punct ')') (keyed Query.value) fuel (.name key :: .punct ':' ::
      (names.map Token.name ++ (es.flatMap (argumentTokens c) ++ [.punct ')']))) = none := by
  match names with
  | [] =>
      cases es with
      | nil => exact itemsUntil_refused (by simp) (keyed_value_close key [])
      | cons e es =>
          -- the key of the next argument is taken for the value
          refine itemsUntil_refused_later (by simp) (keyed_value_name key e.1 _) fun _ => ?_
          exact itemsUntil_refused (by simp) (keyed_punct ':' _)
  | [_] => exact absurd rfl h
  | first :: second :: others =>
      refine itemsUntil_refused_later (by simp) (keyed_value_name key first _) fun _ => ?_
      refine itemsUntil_refused (by simp) (keyed_eq_none_of_ne_colon ?_ second)
      cases others with
      | nil => exact head?_argumentTokens es
      | cons third others => simp

theorem itemsUntil_eq_none {es : List (String × Json)}
    (hbad : ∃ e ∈ es, ¬(c.styleOf e.1).IsOne e.2) (fuel : Nat) :
    itemsUntil (.punct ')') (keyed Query.value) fuel
      (es.flatMap (argumentTokens c) ++ [.punct ')']) = none := by
  induction es generalizing fuel with
  | nil => simp at hbad
  | cons e rest ih =>
      obtain ⟨key, v⟩ := e
      rw [List.flatMap_cons, List.append_assoc, argumentTokens]
      by_cases hone : (c.styleOf key).IsOne v
      · have hrest : ∃ e ∈ rest, ¬(c.styleOf e.1).IsOne e.2 := by
          simpa [hone] using hbad
        have htakes := takes_keyed (e := (key, (c.styleOf key).value v))
          (takes_value ((c.styleOf key).value v))
          (rest.flatMap (argumentTokens c) ++ [.punct ')'])
        rw [ArgumentStyle.tokens_eq_tokens_value hone]
        exact itemsUntil_refused_later (by simp) htakes (ih hrest)
      · obtain ⟨hstyle, hlength⟩ := Classical.not_imp.mp hone
        rw [hstyle]
        exact itemsUntil_names_eq_none hlength key rest fuel

theorem readAll?_clause_eq_none (h : a.WellFormed c)
    (hbad : ∃ e ∈ a.present, ¬(c.styleOf e.1).IsOne e.2) :
    readAll? arguments (a.clause c) = none := by
  have hne : a.present ≠ [] := by
    rintro hnil
    simp [hnil] at hbad
  have hitems : someUntilClose (.punct ')') (keyed Query.value)
      (a.present.flatMap (argumentTokens c) ++ [.punct ')']) = none := by
    refine someUntilClose_refused ?_ (itemsUntil_eq_none hbad)
    cases hpresent : a.present with
    | nil => exact absurd hpresent hne
    | cons e rest => simp [argumentTokens]
  rw [readAll?, ofText?_clause h hne, Option.bind_some, arguments_open, hitems]

/-! ### Main statements -/

/-- Without values the clause is empty. With values it is read as arguments exactly when
every enum value holds one name, and then as the arguments that have a value, in order. -/
theorem clause_readable (h : a.WellFormed c) :
    (a.present = [] → a.clause c = "") ∧
      (a.present ≠ [] → ∀ xs, readAll? arguments (a.clause c) = some xs ↔
        (∀ e ∈ a.present, (c.styleOf e.1).IsOne e.2) ∧
          xs = a.present.map fun e => (e.1, (c.styleOf e.1).value e.2)) := by
  refine ⟨clause_of_present_eq_nil, fun hne xs => ?_⟩
  by_cases hone : ∀ e ∈ a.present, (c.styleOf e.1).IsOne e.2
  · rw [readAll?_clause h hne hone, Option.some_inj]
    exact ⟨fun hxs => ⟨hone, hxs.symm⟩, fun hxs => hxs.2.symm⟩
  · have hbad : ∃ e ∈ a.present, ¬(c.styleOf e.1).IsOne e.2 := by
      simpa only [not_forall, exists_prop] using hone
    rw [readAll?_clause_eq_none h hbad]
    exact ⟨fun hxs => absurd hxs (by simp), fun hxs => absurd hxs.1 hone⟩

/-- Lists of flags in lists, an enum in a list, an argument without a value, and an object
whose string would end the clause if its quote were not escaped. -/
def nestedArguments : Arguments :=
  .ofList [("type", some (.arr [.str "NEW", .arr [], .arr [.str "OLD"]])),
    ("sectionType", some (.arr [.arr [.str "PODCAST"]])), ("after", none),
    ("filter", some (.obj [("text", .str "\")"), ("limit", .num (.int (-3)))]))]

theorem clause_readable_nested :
    nestedArguments.WellFormed .standalone ∧ nestedArguments.present ≠ [] ∧
      (∀ e ∈ nestedArguments.present, (Classification.standalone.styleOf e.1).IsOne e.2) ∧
      readAll? arguments (nestedArguments.clause .standalone) =
        some (nestedArguments.present.map fun e =>
          (e.1, (Classification.standalone.styleOf e.1).value e.2)) := by
  have hwell : nestedArguments.WellFormed .standalone := by
    decide +kernel
  have hne : nestedArguments.present ≠ [] := List.ne_nil_of_length_pos (by decide +kernel)
  have hone : ∀ e ∈ nestedArguments.present,
      (Classification.standalone.styleOf e.1).IsOne e.2 := by
    decide +kernel
  exact ⟨hwell, hne, hone, ((clause_readable hwell).2 hne _).mpr ⟨hone, rfl⟩⟩

/-- An enum with two names, which the clause sets side by side. -/
def sectionArguments : Arguments := .ofList [("sectionType", some (.arr [.str "A", .str "B"]))]

/-- The clause is no list of arguments, for the second name stands in it as an argument without
a value. -/
theorem sectionArguments_not_readable :
    sectionArguments.WellFormed .standalone ∧ sectionArguments.present ≠ [] ∧
      sectionArguments.clause .standalone = "(sectionType:A,B)" ∧
      readAll? arguments (sectionArguments.clause .standalone) = none := by
  refine ⟨by decide +kernel, ?_, by decide +kernel, ?_⟩
  · exact List.ne_nil_of_length_pos (by decide +kernel)
  · exact Option.isNone_iff_eq_none.mp (by decide +kernel)

/-- All arguments that have a value are plain ones, and objects are keyed by names. -/
def Plain (a : Arguments) (c : Classification) : Prop :=
  ∀ e ∈ a.present, Sdl.IsName e.1 ∧ c.styleOf e.1 = .plain ∧ e.2.isKeyedByNames = true

instance : Decidable (a.Plain c) :=
  inferInstanceAs (Decidable (∀ e ∈ a.present,
    Sdl.IsName e.1 ∧ c.styleOf e.1 = .plain ∧ e.2.isKeyedByNames = true))

theorem Plain.wellFormed (h : a.Plain c) : a.WellFormed c := by
  intro e he
  obtain ⟨hname, hstyle, hkeys⟩ := h e he
  rw [hstyle]
  exact ⟨hname, hkeys⟩

theorem Plain.isOne (h : a.Plain c) : ∀ e ∈ a.present, (c.styleOf e.1).IsOne e.2 := by
  intro e he henum
  rw [(h e he).2.1] at henum
  cases henum

theorem Plain.readAll?_clause (h : a.Plain c) (hne : a.present ≠ []) :
    readAll? arguments (a.clause c) = some (a.present.map fun e => (e.1, .ofJson e.2)) := by
  have hvalues : (a.present.map fun e => (e.1, (c.styleOf e.1).value e.2)) =
      a.present.map fun e => (e.1, Value.ofJson e.2) :=
    List.map_congr_left fun e he => by rw [(h e he).2.1]; rfl
  rw [Arguments.readAll?_clause h.wellFormed hne h.isOne, hvalues]

theorem Plain.present_eq_nil (h : a.Plain c) (hclause : a.clause c = "") : a.present = [] := by
  by_contra hne
  have hread := h.readAll?_clause hne
  have hempty : readAll? arguments "" = none := Option.isNone_iff_eq_none.mp (by decide)
  rw [hclause, hempty] at hread
  cases hread

/-- A clause of plain arguments determines which of them have a value, and the values. -/
theorem present_eq_of_clause_eq (ha : a.Plain c) (hb : b.Plain c)
    (h : a.clause c = b.clause c) : a.present = b.present := by
  by_cases hne : a.present = []
  · rw [hne, hb.present_eq_nil (h ▸ clause_of_present_eq_nil hne)]
  · have hne' : b.present ≠ [] := fun hnil =>
      hne (ha.present_eq_nil (h.trans (clause_of_present_eq_nil hnil)))
    have hread := ha.readAll?_clause hne
    rw [h, hb.readAll?_clause hne', Option.some_inj] at hread
    refine (List.map_injective_iff.mpr ?_ hread).symm
    intro e e' hpair
    obtain ⟨hkey, hvalue⟩ := Prod.mk.inj hpair
    exact Prod.ext hkey (Value.ofJson_injective hvalue)

/-- A string with everything that could end it or what stands around it. -/
def quotedArguments : Arguments :=
  .ofList [("text", some (.obj [("inner", .arr [.str "\"\\)\x7d],#\n é", .null])]))]

/-- The same call with an argument that has no value. -/
def quotedWithAbsent : Arguments := quotedArguments.insert "after" none

theorem present_eq_of_clause_eq_quoted :
    quotedArguments.Plain .standalone ∧ quotedWithAbsent.Plain .standalone ∧
      quotedArguments.clause .standalone = quotedWithAbsent.clause .standalone ∧
      quotedArguments.present = quotedWithAbsent.present := by
  have hquoted : quotedArguments.Plain .standalone := by
    decide +kernel
  have hafter : quotedWithAbsent.Plain .standalone := by
    decide +kernel
  have hclause : quotedArguments.clause .standalone = quotedWithAbsent.clause .standalone := by
    decide +kernel
  exact ⟨hquoted, hafter, hclause, present_eq_of_clause_eq hquoted hafter hclause⟩

end Arguments

end SelectionCompiler
