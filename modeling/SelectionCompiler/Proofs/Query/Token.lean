import SelectionCompiler.Json.Printer
import SelectionCompiler.Proofs.Json.Number
import SelectionCompiler.Proofs.Json.Quoted
import SelectionCompiler.Proofs.Sdl.Name
import SelectionCompiler.Proofs.Text.Lexer

/-!
The tokens of query texts. Blanks, tabs, line ends, commas, byte order marks and comments
separate tokens and mean nothing else. A number keeps its literal, which no name and no
point may follow directly; a string is read with its escapes, and a block string keeps what
stands between its quotes. Names, quoted strings and the texts of numbers are each one
token.
-/

namespace SelectionCompiler

namespace Query

inductive Token where
  | punct (c : Char)
  | spread
  | name (text : String)
  | number (literal : Json.Number.Literal)
  | string (text : String)
  | block (raw : String)
deriving DecidableEq

namespace Token

open Sdl.Token (isIgnored isPunctuator isNameStart isNamePart isLineEnd skipBlock?)

/-! ### Strings -/

/-- Reads a string after its opening quote; `seen` holds what has been read, last
character first. Control characters need no escape here, only line ends do. -/
def quoted? (seen : List Char) : List Char → Option (List Char × List Char)
  | [] => none
  | '"' :: rest => some (seen.reverse, rest)
  | '\\' :: 'u' :: a :: b :: c :: d :: rest =>
      match Json.Quoted.unit? a b c d with
      | none => none
      | some n =>
          if Json.Quoted.isLowSurrogate n then none
          else if Json.Quoted.isHighSurrogate n then
            match rest with
            | '\\' :: 'u' :: a' :: b' :: c' :: d' :: rest =>
                match Json.Quoted.unit? a' b' c' d' with
                | some low =>
                    if Json.Quoted.isLowSurrogate low then
                      quoted? (Json.Quoted.pairChar n low :: seen) rest
                    else none
                | none => none
            | _ => none
          else quoted? (Char.ofNat n :: seen) rest
  | '\\' :: c :: rest =>
      match Json.Quoted.simpleEscape? c with
      | some e => quoted? (e :: seen) rest
      | none => none
  | c :: rest =>
      if c = '\\' || isLineEnd c then none else quoted? (c :: seen) rest

/-- A string of a JSON text is the same string here. -/
theorem quoted?_of_decode {seen cs : List Char} {r : List Char × List Char}
    (h : Json.Quoted.decode seen cs = some r) : quoted? seen cs = some r := by
  fun_induction Json.Quoted.decode seen cs with
  | case2 => exact h
  | case5 _ _ _ _ _ _ hunit hlow hhigh _ _ _ _ _ _ hunit' hlow' ih =>
      simpa [quoted?, hunit, hlow, hhigh, hunit', hlow'] using ih h
  | case9 _ _ _ _ _ _ _ hunit hlow hhigh ih => simpa [quoted?, hunit, hlow, hhigh] using ih h
  | case10 _ _ _ hunicode _ hescape ih => simpa [quoted?, hescape] using ih h
  | case13 _ c rest hquote _ _ hplain ih =>
      have hline : isLineEnd c = false := by
        cases hline : isLineEnd c with
        | false => rfl
        | true =>
            simp only [isLineEnd, Bool.or_eq_true, beq_iff_eq] at hline
            rcases hline with rfl | rfl <;> exact absurd rfl hplain
      simp only [Bool.or_eq_true, decide_eq_true_eq, not_or] at hplain
      simpa [quoted?, hline, hplain] using ih h
  | _ => cases h

/-- After an opening quote: a block string if two more quotes come at once. -/
def string? : List Char → Option (Token × List Char)
  | '"' :: '"' :: rest =>
      (skipBlock? rest).map fun after =>
        (.block (String.ofList (rest.take (rest.length - after.length - 3))), after)
  | rest => (quoted? [] rest).map fun s => (.string (String.ofList s.1), s.2)

/-! ### Tokens -/

def number? (cs : List Char) : Option (Token × List Char) := do
  let (literal, rest) ← Json.Token.literal? cs
  if rest.head?.any fun c => isNamePart c || c == '.' then none
  else some (.number literal, rest)

def spread? : List Char → Option (Token × List Char)
  | '.' :: '.' :: rest => some (.spread, rest)
  | _ => none

/-- The token that begins with the given character. -/
def next? (c : Char) (rest : List Char) : Option (Token × List Char) :=
  if c = '"' then string? rest
  else if c = '.' then spread? rest
  else if isPunctuator c then some (.punct c, rest)
  else if isNameStart c then
    some (.name (String.ofList (c :: rest.takeWhile isNamePart)),
      rest.dropWhile isNamePart)
  else number? (c :: rest)

def lexer : Lexer Token where
  step c rest :=
    if isIgnored c then some (none, rest)
    else if c = '#' then some (none, rest.dropWhile (!isLineEnd ·))
    else (next? c rest).map fun t => (some t.1, t.2)
  ends c := !(isNamePart c || c == '.' || c == '"')

/-- The tokens of a text. -/
def ofText? (text : String) : Option (List Token) := lexer.tokens? text.toList

theorem step_lexer {c : Char} (hignored : isIgnored c = false) (hcomment : c ≠ '#')
    (rest : List Char) :
    lexer.step c rest = (next? c rest).map fun t => (some t.1, t.2) := by
  simp [lexer, hignored, hcomment]

variable {c : Char} {cs rest : List Char} {ts : List Token}

/-! ### Stretches of text -/

theorem reads_ignored (hc : isIgnored c = true) (h : lexer.Reads cs ts) :
    lexer.Reads (c :: cs) ts :=
  h.pass fun rest => by simp [lexer, hc]

theorem reads_punct (hc : isPunctuator c = true) (h : lexer.Reads cs ts) :
    lexer.Reads (c :: cs) (.punct c :: ts) := by
  have hother : ∀ d, isPunctuator d = true →
      isIgnored d = false ∧ d ≠ '#' ∧ d ≠ '"' ∧ d ≠ '.' := by
    simp [isPunctuator, isIgnored]
  obtain ⟨hignored, hcomment, hquote, hpoint⟩ := hother c hc
  refine h.take fun rest => ?_
  rw [step_lexer hignored hcomment, next?, if_neg hquote, if_neg hpoint, if_pos hc]
  rfl

/-- The characters of names and numbers are neither ignored nor punctuation. -/
theorem step_of_isNamePart (hc : isNamePart c = true ∨ c = '-') (rest : List Char) :
    lexer.step c rest = (if isNameStart c then
      some (.name (String.ofList (c :: rest.takeWhile isNamePart)),
        rest.dropWhile isNamePart)
    else number? (c :: rest)).map fun t => (some t.1, t.2) := by
  have hplain : isIgnored c = false ∧ c ≠ '#' ∧ c ≠ '"' ∧ c ≠ '.' ∧
      isPunctuator c = false := by
    rcases hc with hc | rfl
    · exact Sdl.forall_isNamePart (p := fun c => isIgnored c = false ∧ c ≠ '#' ∧
        c ≠ '"' ∧ c ≠ '.' ∧ isPunctuator c = false) (by decide +kernel) hc
    · decide
  obtain ⟨hignored, hcomment, hquote, hpoint, hpunct⟩ := hplain
  rw [step_lexer hignored hcomment, next?, if_neg hquote, if_neg hpoint, hpunct]
  rfl

theorem not_isNamePart_of_ends (h : lexer.Ends rest) :
    ∀ c ∈ rest.head?, isNamePart c = false ∧ c ≠ '.' ∧ c ≠ '"' := by
  intro c hc
  have hends := h c hc
  simpa [lexer, and_assoc] using hends

theorem reads_name {name : String} (h : Sdl.IsName name) :
    lexer.Reads name.toList [.name name] := by
  cases hname : name.toList with
  | nil => exact absurd (String.toList_eq_nil_iff.mp hname) h.ne_empty
  | cons c cs =>
      have hstart : isNameStart c = true := by
        simpa [hname] using h.1
      have hparts : ∀ d ∈ c :: cs, isNamePart d = true := by
        rw [← hname]
        exact fun _ => h.isNamePart
      refine Lexer.reads_token fun rest hrest => ?_
      have hpart := List.forall_mem_cons.mp hparts
      have hstop : ∀ d ∈ rest.head?, isNamePart d = false :=
        fun d hd => (not_isNamePart_of_ends hrest d hd).1
      rw [step_of_isNamePart (.inl hpart.1), if_pos hstart,
        Text.takeWhile_append_of_stop hpart.2 hstop, Text.dropWhile_append_of_stop hpart.2 hstop,
        ← hname, String.ofList_toList]
      rfl

/-- A single quote after the opening one does not open a block. -/
theorem string?_eq_quoted? (h : ∀ rest, cs ≠ '"' :: '"' :: rest) :
    string? cs = (quoted? [] cs).map fun s => (.string (String.ofList s.1), s.2) := by
  unfold string?
  split
  · exact absurd rfl (h _)
  · rfl

theorem exists_escape_eq_cons (c : Char) :
    ∃ d ds, Json.Quoted.escape c = d :: ds ∧ d ≠ '"' := by
  unfold Json.Quoted.escape
  split
  case h_8 hquote _ _ _ _ _ _ =>
    split
    · exact ⟨_, _, rfl, by decide⟩
    · exact ⟨c, [], rfl, hquote⟩
  all_goals exact ⟨_, _, rfl, by decide⟩

theorem reads_quote (s : String) : lexer.Reads (Json.quote s).toList [.string s] := by
  rw [Json.quote, String.toList_ofList, Json.Quoted.encode]
  refine Lexer.reads_token fun rest hrest => ?_
  have hdecode := Json.Quoted.decode_flatMap_escape s.toList [] rest
  -- only the quotes of an empty string stand next to each other, and no third one follows them
  have hblock : ∀ more, s.toList.flatMap Json.Quoted.escape ++ '"' :: rest ≠
      '"' :: '"' :: more := by
    intro more heq
    cases hs : s.toList with
    | nil =>
        rw [hs] at heq
        obtain rfl := (List.cons.inj heq).2
        exact (not_isNamePart_of_ends hrest '"' rfl).2.2 rfl
    | cons c cs =>
        obtain ⟨d, ds, hescape, hne⟩ := exists_escape_eq_cons c
        rw [hs, List.flatMap_cons, hescape] at heq
        exact hne (List.cons.inj heq).1
  rw [step_lexer rfl (by decide), next?, if_pos rfl, List.append_assoc, List.singleton_append,
    string?_eq_quoted? hblock, quoted?_of_decode hdecode]
  simp

theorem isNamePart_of_isDigit (h : c.isDigit = true) : isNamePart c = true := by
  simp [isNamePart, Char.isAlphanum, h]

theorem reads_number (n : Json.Number) :
    lexer.Reads (Json.numberText n).toList [.number n.literal] := by
  obtain ⟨c, cs, htext, hc⟩ := (Json.Number.wellFormed_literal n).exists_text_eq_cons
  have hstart : ¬isNameStart c = true := by
    rcases hc with rfl | hdigit
    · decide
    · rw [Sdl.isNameStart_of_isNamePart (isNamePart_of_isDigit hdigit), hdigit]
      decide
  rw [Json.numberText, String.toList_ofList, ← Json.Number.text_literal, htext]
  refine Lexer.reads_token fun rest hrest => ?_
  have hends := not_isNamePart_of_ends hrest
  have hliteral : Json.Token.EndsLiteral rest := by
    intro d hd
    have hpart := (hends d hd).1
    refine ⟨?_, (hends d hd).2.1, ?_, ?_⟩
    · exact Bool.eq_false_iff.mpr fun hdigit =>
        Bool.eq_false_iff.mp hpart (isNamePart_of_isDigit hdigit)
    · rintro rfl
      cases hpart
    · rintro rfl
      cases hpart
  have hfollow : (rest.head?.any fun c => isNamePart c || c == '.') = false := by
    cases rest with
    | nil => rfl
    | cons d rest => simp [hends d rfl]
  rw [step_of_isNamePart (hc.symm.imp_left isNamePart_of_isDigit), if_neg hstart, number?,
    ← List.cons_append, ← htext,
    Json.Token.literal?_append (Json.Number.wellFormed_literal n) hliteral]
  simp [hfollow]

/-! ### Lists of texts -/

theorem ends_of_isIgnored (h : isIgnored c = true) : lexer.ends c = true := by
  simp only [isIgnored, Bool.or_eq_true, beq_iff_eq] at h
  rcases h with ((((rfl | rfl) | rfl) | rfl) | rfl) | rfl <;> rfl

/-- A separator of ignored characters is seen only as the end of what comes before it. -/
theorem reads_separated {separator xs ys : List Char} {us : List Token}
    (hne : separator ≠ []) (hignored : ∀ d ∈ separator, isIgnored d = true)
    (hxs : lexer.Reads xs ts) (hys : lexer.Reads ys us) :
    lexer.Reads (xs ++ (separator ++ ys)) (ts ++ us) := by
  have hpass : lexer.Reads (separator ++ ys) us := by
    clear hne
    induction separator with
    | nil => exact hys
    | cons d separator ih =>
        exact reads_ignored (hignored d List.mem_cons_self)
          (ih fun e he => hignored e (List.mem_cons_of_mem d he))
  match separator, hne with
  | d :: separator, _ =>
      exact hxs.append (ends_of_isIgnored (hignored d List.mem_cons_self)) hpass

theorem reads_intercalate {α : Type} {separator : String} {part : α → String}
    {write : α → List Token} {xs : List α} (hne : separator ≠ "")
    (hignored : separator.toList.all isIgnored = true)
    (h : ∀ x ∈ xs, lexer.Reads (part x).toList (write x)) :
    lexer.Reads (separator.intercalate (xs.map part)).toList (xs.flatMap write) := by
  induction xs with
  | nil => exact Lexer.reads_nil
  | cons x xs ih =>
      have hx := h x List.mem_cons_self
      have hxs := ih fun y hy => h y (List.mem_cons_of_mem x hy)
      cases xs with
      | nil =>
          rw [List.map_singleton, String.intercalate_singleton, List.flatMap_singleton]
          exact hx
      | cons y ys =>
          rw [List.map_cons, String.intercalate_cons_of_ne_nil (by simp), String.toList_append,
            String.toList_append, List.append_assoc, List.flatMap_cons]
          exact reads_separated (mt String.toList_eq_nil_iff.mp hne)
            (List.all_eq_true.mp hignored) hx hxs

end Token

end Query

end SelectionCompiler
