import SelectionCompiler.Proofs.Query.Value
import SelectionCompiler.Proofs.Selection.Basic
import SelectionCompiler.Query.Basic

/-!
Reading back selections. A selection in braces is read a name at a time, and a brace after a
name opens the selection on that field, so fields next to each other, fields before nested
ones and empty selections are all told apart: the text of a selection without references,
with or without the braces around it, is the text of no other.
-/

namespace SelectionCompiler

namespace Query

open Reader

/-- The fuel bounds the nesting. -/
def elementWithin : Nat → Reader Token Element
  | 0 => refuse
  | fuel + 1 => do
      let field ← name
      if ← accept (.punct '{') then
        return .nested field (← untilClose (.punct '}') (elementWithin fuel))
      else return .field field

def selection : Reader Token Selection := do
  expect (.punct '{')
  untilClose (.punct '}') (elementWithin (← bound))

end Query

namespace Element

open Query Reader

/-- A field, bare or with a selection of its own, that has a name. -/
def NamesField : Element → Prop
  | .field name => Sdl.IsName name
  | .nested name _ => Sdl.IsName name
  | .reference _ _ => False

instance : DecidablePred NamesField := fun e => by
  cases e <;> unfold NamesField <;> infer_instance

mutual

def tokens : Element → List Token
  | .field name => [.name name]
  | .nested name children => .name name :: .punct '{' :: (allTokens children ++ [.punct '}'])
  | .reference _ _ => []

def allTokens : List Element → List Token
  | [] => []
  | e :: rest => e.tokens ++ allTokens rest

end

theorem allTokens_eq_flatMap (s : Selection) : allTokens s = s.flatMap tokens := by
  induction s with
  | nil => rfl
  | cons e rest ih => rw [allTokens, ih, List.flatMap_cons]

theorem listText_eq_intercalate (s : Selection) : listText s = " ".intercalate (s.map text) := by
  induction s with
  | nil => rfl
  | cons e rest ih =>
      cases rest with
      | nil => simp [listText]
      | cons e' rest => simp [listText, ih, String.intercalate_cons_cons]

end Element

namespace Selection

open Query Reader Element

variable {s t : Selection}

theorem reads_listText (h : ∀ e ∈ s, Token.lexer.Reads e.text.toList e.tokens) :
    Token.lexer.Reads (listText s).toList (allTokens s) := by
  rw [listText_eq_intercalate, allTokens_eq_flatMap]
  exact Token.reads_intercalate (by decide) (by decide +kernel) h

theorem reads_text (h : s.Everywhere NamesField) :
    ∀ e ∈ s, Token.lexer.Reads e.text.toList e.tokens := by
  induction s using Selection.induction with
  | nil => simp
  | field name rest ih =>
      obtain ⟨hname, _, hrest⟩ := everywhere_cons.mp h
      exact List.forall_mem_cons.mpr ⟨Token.reads_name hname, ih hrest⟩
  | nested name children rest ihchildren ih =>
      obtain ⟨hname, hchildren, hrest⟩ := everywhere_cons.mp h
      refine List.forall_mem_cons.mpr ⟨?_, ih hrest⟩
      have htext : (nested name children).text.toList =
          name.toList ++ ' ' :: '{' :: ' ' :: ((listText children).toList ++ [' ', '}']) := by
        simp [text]
      have hclose := Token.reads_ignored (c := ' ') rfl
        (Token.reads_punct (c := '}') rfl Lexer.reads_nil)
      have hinner := (reads_listText (ihchildren hchildren)).append rfl hclose
      rw [htext]
      exact (Token.reads_name hname).append rfl (Token.reads_ignored rfl
        (Token.reads_punct rfl (Token.reads_ignored rfl hinner)))
  | reference name type rest ih => exact absurd (everywhere_cons.mp h).1 id

/-- Every element that names a field begins with a name. -/
theorem exists_tokens_eq_cons (h : s.Everywhere NamesField) :
    ∀ e ∈ s, ∃ t ts, e.tokens = t :: ts ∧ t ≠ .punct '}' ∧ t ≠ .punct '{' := by
  intro e he
  have hname := h _ _ (.top he)
  cases e with
  | field name => exact ⟨_, _, rfl, by simp⟩
  | nested name children => exact ⟨_, _, rfl, by simp⟩
  | reference name type => exact absurd hname id

theorem takes_untilBrace {fuel : Nat} (h : s.Everywhere NamesField)
    (hitem : ∀ e ∈ s, TakesBefore (· ≠ .punct '{') (elementWithin fuel) e.tokens e) :
    Takes (untilClose (.punct '}') (elementWithin fuel)) (allTokens s ++ [.punct '}']) s := by
  rw [allTokens_eq_flatMap]
  exact takes_untilClose_before hitem (exists_tokens_eq_cons h) (by simp)

/-- A bare field is one as long as no brace follows it. -/
theorem takes_elementWithin (h : s.Everywhere NamesField) {fuel : Nat}
    (hfuel : (allTokens s).length ≤ fuel) :
    ∀ e ∈ s, TakesBefore (· ≠ .punct '{') (elementWithin fuel) e.tokens e := by
  induction s using Selection.induction generalizing fuel with
  | nil => simp
  | field name rest ih =>
      obtain ⟨_, _, hrest⟩ := everywhere_cons.mp h
      simp only [allTokens, tokens, List.length_append, List.length_singleton] at hfuel
      refine List.forall_mem_cons.mpr ⟨?_, ih hrest (by omega)⟩
      obtain ⟨fuel, rfl⟩ : ∃ n, fuel = n + 1 := ⟨fuel - 1, by omega⟩
      intro more hmore
      have hbrace : more.head? ≠ some (.punct '{') := fun hhead => hmore _ hhead rfl
      change (accept (.punct '{') more).bind _ = _
      rw [accept_apply, if_neg hbrace]
      rfl
  | nested name children rest ihchildren ih =>
      obtain ⟨_, hchildren, hrest⟩ := everywhere_cons.mp h
      simp only [allTokens, tokens, List.length_append, List.length_cons] at hfuel
      refine List.forall_mem_cons.mpr ⟨?_, ih hrest (by omega)⟩
      obtain ⟨fuel, rfl⟩ : ∃ n, fuel = n + 1 := ⟨fuel - 1, by omega⟩
      have hlength : (allTokens children).length ≤ fuel := by omega
      have hbraces := takes_untilBrace hchildren (ihchildren hchildren hlength)
      have hnested : Takes (do return .nested name (← untilClose (.punct '}') (elementWithin fuel)))
          (allTokens children ++ [.punct '}']) (nested name children) := hbraces.map
      exact (Takes.bind (takes_name name)
        (Takes.bind (takes_accept (Token.punct '{')) hnested)).before
  | reference name type rest ih => exact absurd (everywhere_cons.mp h).1 id

theorem takes_selection (h : s.Everywhere NamesField) :
    Takes selection (.punct '{' :: (allTokens s ++ [.punct '}'])) s := by
  intro rest
  change untilClose (Token.punct '}')
    (elementWithin ((allTokens s ++ [Token.punct '}'] ++ rest).length + 1)) _ = _
  refine takes_untilBrace h (takes_elementWithin h ?_) rest
  rw [List.append_assoc, List.length_append]
  omega

theorem reads_braces (h : s.Everywhere NamesField) :
    Token.lexer.Reads s.braces.toList (.punct '{' :: (allTokens s ++ [.punct '}'])) := by
  have htext : s.braces.toList =
      '{' :: ' ' :: ((listText s).toList ++ [' ', '}']) := by
    simp [braces, fieldsText]
  -- the blanks stay apart around an empty selection too, and are passed over one by one
  have hclose := Token.reads_ignored (c := ' ') rfl
    (Token.reads_punct (c := '}') rfl Lexer.reads_nil)
  have hinner := (reads_listText (reads_text h)).append rfl hclose
  rw [htext]
  exact Token.reads_punct rfl (Token.reads_ignored rfl hinner)

theorem readAll?_braces (h : s.Everywhere NamesField) : readAll? selection s.braces = some s :=
  readAll?_eq (reads_braces h).tokens?_eq (takes_selection h)

/-- The text of a selection in braces is read as that selection, and determines it, and so
does the text without the braces. -/
theorem braces_faithful (hs : s.Everywhere NamesField) (ht : t.Everywhere NamesField) :
    readAll? selection s.braces = some s ∧ (s.braces = t.braces → s = t) ∧
      (s.fieldsText = t.fieldsText → s = t) := by
  have hbraces : s.braces = t.braces → s = t := by
    intro h
    have hread := readAll?_braces hs
    rw [h, readAll?_braces ht] at hread
    exact (Option.some.inj hread).symm
  exact ⟨readAll?_braces hs, hbraces, fun h => hbraces (by rw [braces, h, braces])⟩

/-- An empty selection before a field, and the two on one field. -/
theorem braces_faithful_empty :
    Everywhere NamesField [.nested "a" [], .field "b"] ∧
      Everywhere NamesField [.nested "a" [.field "b"]] ∧
      readAll? selection (braces [.nested "a" [], .field "b"]) =
        some [.nested "a" [], .field "b"] ∧
      braces [.nested "a" [], .field "b"] ≠ braces [.nested "a" [.field "b"]] ∧
      fieldsText [.nested "a" [], .field "b"] ≠ fieldsText [.nested "a" [.field "b"]] := by
  have hs : Everywhere NamesField [.nested "a" [], .field "b"] := by
    decide
  have ht : Everywhere NamesField [.nested "a" [.field "b"]] := by
    decide
  obtain ⟨hread, hbraces, hfields⟩ := braces_faithful hs ht
  exact ⟨hs, ht, hread, mt hbraces (by decide), mt hfields (by decide)⟩

end Selection

end SelectionCompiler
