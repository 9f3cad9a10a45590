import SelectionCompiler.Naming
import SelectionCompiler.Proofs.Sdl.Name
import SelectionCompiler.Proofs.Text.Words

/-!
Names in other casings. A casing of a name consists of characters of names again, but the
underscores in front of the first word are lost. Main statement: so a casing
starts with a digit exactly if a digit comes first in the name after underscores.
-/

namespace SelectionCompiler

namespace Text

open Sdl

def startsWithDigit (text : List Char) : Bool := text.head?.any Char.isDigit

/-- The first character of the name that is no underscore is a digit. -/
def leadsWithDigit (name : String) : Bool := (name.toList.find? (· != '_')).any Char.isDigit

/-! ### Words -/

theorem upperForm_of_isNamePart {c : Char} (h : Token.isNamePart c = true) :
    upperForm c = [c.toUpper] ∧ Token.isNamePart c.toUpper = true ∧
      c.toUpper.isDigit = c.isDigit :=
  forall_isNamePart (p := fun c => upperForm c = [c.toUpper] ∧
    Token.isNamePart c.toUpper = true ∧ c.toUpper.isDigit = c.isDigit) (by decide +kernel) h

theorem lowerForm_of_isNamePart {c : Char} (h : Token.isNamePart c = true) :
    lowerForm c = [c.toLower] ∧ Token.isNamePart c.toLower = true ∧
      c.toLower.isDigit = c.isDigit :=
  forall_isNamePart (p := fun c => lowerForm c = [c.toLower] ∧
    Token.isNamePart c.toLower = true ∧ c.toLower.isDigit = c.isDigit) (by decide +kernel) h

theorem upperWord_eq_map {word : List Char} (h : ∀ c ∈ word, Token.isNamePart c = true) :
    upperWord word = word.map Char.toUpper := by
  induction word with
  | nil => rfl
  | cons c rest ih =>
      obtain ⟨hc, hrest⟩ := List.forall_mem_cons.mp h
      rw [upperWord, List.flatMap_cons, ← upperWord, ih hrest, (upperForm_of_isNamePart hc).1]
      rfl

theorem lowerWord_eq_map {word : List Char} (h : ∀ c ∈ word, Token.isNamePart c = true) :
    lowerWord word = word.map Char.toLower := by
  fun_induction lowerWord word with
  | case1 => rfl
  | case2 =>
      -- the letter with a form of its own at the end of words is in no name
      have hsigma : Token.isNamePart 'Σ' = false := by decide
      rw [h _ (List.mem_singleton_self _)] at hsigma
      cases hsigma
  | case3 c _ => exact (lowerForm_of_isNamePart (h c (List.mem_singleton_self c))).1
  | case4 c rest _ ih =>
      obtain ⟨hc, hrest⟩ := List.forall_mem_cons.mp h
      rw [ih hrest, (lowerForm_of_isNamePart hc).1]
      rfl

/-- The text consists of characters of names and starts like the word: with a digit or
with none. -/
structure StartsLike (word text : List Char) : Prop where
  parts : ∀ c ∈ text, Token.isNamePart c = true
  nonempty : text ≠ []
  first : startsWithDigit text = startsWithDigit word

theorem StartsLike.append {word text more : List Char} (h : StartsLike word text)
    (hmore : ∀ c ∈ more, Token.isNamePart c = true) : StartsLike word (text ++ more) := by
  refine ⟨List.forall_mem_append.mpr ⟨h.parts, hmore⟩,
    List.append_ne_nil_of_left_ne_nil h.nonempty _, ?_⟩
  rw [startsWithDigit, List.head?_append_of_ne_nil text h.nonempty]
  exact h.first

/-- A word of a name. -/
def IsWord (word : List Char) : Prop := word ≠ [] ∧ ∀ c ∈ word, Token.isNamePart c = true

variable {word : List Char}

theorem startsLike_map (hne : word ≠ []) {f : Char → Char}
    (hf : ∀ c ∈ word, Token.isNamePart (f c) = true ∧ (f c).isDigit = c.isDigit) :
    StartsLike word (word.map f) := by
  obtain ⟨c, rest, rfl⟩ := List.exists_cons_of_ne_nil hne
  exact ⟨List.forall_mem_map.mpr fun d hd => (hf d hd).1, List.cons_ne_nil _ _,
    (hf c List.mem_cons_self).2⟩

theorem startsLike_upperWord (h : IsWord word) : StartsLike word (upperWord word) := by
  rw [upperWord_eq_map h.2]
  exact startsLike_map h.1 fun c hc => (upperForm_of_isNamePart (h.2 c hc)).2

theorem startsLike_lowerWord (h : IsWord word) : StartsLike word (lowerWord word) := by
  rw [lowerWord_eq_map h.2]
  exact startsLike_map h.1 fun c hc => (lowerForm_of_isNamePart (h.2 c hc)).2

theorem startsLike_capitalWord (h : IsWord word) : StartsLike word (capitalWord word) := by
  obtain ⟨hne, hparts⟩ := h
  obtain ⟨c, rest, rfl⟩ := List.exists_cons_of_ne_nil hne
  obtain ⟨hc, hrest⟩ := List.forall_mem_cons.mp hparts
  obtain ⟨hform, hupper, hdigit⟩ := upperForm_of_isNamePart hc
  rw [capitalWord, hform, lowerWord_eq_map hrest]
  refine ⟨List.forall_mem_cons.mpr ⟨hupper, ?_⟩, List.cons_ne_nil _ _, hdigit⟩
  exact List.forall_mem_map.mpr fun d hd => (lowerForm_of_isNamePart (hrest d hd)).2.1

/-! ### Names -/

variable {name shown : String}

/-- The name as shown consists of characters of names and starts with a digit exactly if
the name has one first after underscores. -/
structure Recases (name shown : String) : Prop where
  parts : ∀ c ∈ shown.toList, Token.isNamePart c = true
  first : startsWithDigit shown.toList = leadsWithDigit name

theorem isAlphanumeric_of_isNamePart {c : Char} (h : Token.isNamePart c = true) :
    isAlphanumeric c = (c != '_') :=
  forall_isNamePart (p := fun c => isAlphanumeric c = (c != '_')) (by decide +kernel) h

theorem isWord_of_mem_words (h : IsName name) (hword : word ∈ words name) : IsWord word := by
  refine ⟨?_, fun _ hc => h.isNamePart (mem_of_mem_words hword hc).1⟩
  rintro rfl
  exact nil_notMem_words name hword

theorem leadsWithDigit_eq (h : IsName name) :
    leadsWithDigit name = startsWithDigit (words name).flatten := by
  have hfilter : name.toList.filter isAlphanumeric = name.toList.filter (· != '_') :=
    List.filter_congr fun c hc => isAlphanumeric_of_isNamePart (h.isNamePart hc)
  rw [startsWithDigit, flatten_words, hfilter, List.head?_filter, leadsWithDigit]

theorem recases_of_words (h : IsName name) (hnil : words name = [] → shown = "")
    (hcons : ∀ first rest, words name = first :: rest → StartsLike first shown.toList) :
    Recases name shown := by
  cases hwords : words name with
  | nil =>
      rw [hnil hwords]
      refine ⟨fun _ hc => absurd hc List.not_mem_nil, ?_⟩
      rw [leadsWithDigit_eq h, hwords]
      rfl
  | cons first rest =>
      have hfirst := hcons first rest hwords
      have hne : first ≠ [] := (isWord_of_mem_words h (hwords ▸ List.mem_cons_self)).1
      refine ⟨hfirst.parts, ?_⟩
      rw [hfirst.first, leadsWithDigit_eq h, hwords, List.flatten_cons, startsWithDigit,
        startsWithDigit, List.head?_append_of_ne_nil first hne]

theorem isNamePart_of_mem_flatMap {parts : List (List Char)} {f : List Char → List Char}
    (hf : ∀ word ∈ parts, StartsLike word (f word)) :
    ∀ c ∈ parts.flatMap f, Token.isNamePart c = true := by
  intro c hc
  obtain ⟨word, hword, hc⟩ := List.mem_flatMap.mp hc
  exact (hf word hword).parts c hc

theorem recases_intercalate (h : IsName name) {f : List Char → List Char}
    (hf : ∀ word ∈ words name, StartsLike word (f word)) :
    Recases name ("_".intercalate ((words name).map fun word => String.ofList (f word))) := by
  refine recases_of_words h (fun hwords => by rw [hwords]; rfl) fun first rest hwords => ?_
  rw [hwords] at hf ⊢
  obtain ⟨hfirst, hrest⟩ := List.forall_mem_cons.mp hf
  rw [List.map_cons]
  by_cases hmore : rest = []
  · subst hmore
    rw [List.map_nil, String.intercalate_singleton, String.toList_ofList]
    exact hfirst
  · rw [String.intercalate_cons_of_ne_nil (by simpa using hmore), String.toList_append,
      String.toList_append, String.toList_ofList, List.append_assoc]
    have hunderscore : ∀ c ∈ "_".toList, Token.isNamePart c = true :=
      List.all_eq_true.mp (by decide)
    refine hfirst.append (List.forall_mem_append.mpr ⟨hunderscore, fun c hc => ?_⟩)
    rcases mem_of_mem_intercalate hc with hseparator | ⟨part, hpart, hc⟩
    · exact hunderscore c hseparator
    · obtain ⟨word, hword, rfl⟩ := List.mem_map.mp hpart
      rw [String.toList_ofList] at hc
      exact (hrest word hword).parts c hc

theorem recases_pascalCase (h : IsName name) : Recases name (pascalCase name) := by
  have hcapital : ∀ word ∈ words name, StartsLike word (capitalWord word) :=
    fun word hword => startsLike_capitalWord (isWord_of_mem_words h hword)
  refine recases_of_words h (fun hwords => by rw [pascalCase, hwords]; rfl) ?_
  intro first rest hwords
  rw [hwords] at hcapital
  obtain ⟨hfirst, hrest⟩ := List.forall_mem_cons.mp hcapital
  rw [pascalCase, hwords, String.toList_ofList, List.flatMap_cons]
  exact hfirst.append (isNamePart_of_mem_flatMap hrest)

theorem recases_camelCase (h : IsName name) : Recases name (camelCase name) := by
  refine recases_of_words h (fun hwords => by rw [camelCase, hwords]) ?_
  intro first rest hwords
  have hmem : ∀ word ∈ first :: rest, IsWord word := by
    rw [← hwords]
    exact fun word hword => isWord_of_mem_words h hword
  obtain ⟨hfirst, hrest⟩ := List.forall_mem_cons.mp hmem
  rw [camelCase, hwords]
  dsimp only
  rw [String.toList_ofList]
  exact (startsLike_lowerWord hfirst).append
    (isNamePart_of_mem_flatMap fun word hword => startsLike_capitalWord (hrest word hword))

theorem recases_snakeCase (h : IsName name) : Recases name (snakeCase name) :=
  recases_intercalate h fun _ hword => startsLike_lowerWord (isWord_of_mem_words h hword)

theorem recases_shoutingCase (h : IsName name) : Recases name (shoutingCase name) :=
  recases_intercalate h fun _ hword => startsLike_upperWord (isWord_of_mem_words h hword)

/-- After a casing of the name, an ending leaves a name unless there is a digit in front. -/
theorem Recases.isName_append_iff {ending : String} (h : Recases name shown)
    (hending : IsName ending) :
    IsName (shown ++ ending) ↔ leadsWithDigit name = false := by
  by_cases hempty : shown = ""
  · rw [← h.first, hempty, String.empty_append]
    exact iff_of_true hending rfl
  · rw [Sdl.isName_append_iff hempty hending.2, ← h.first]
    obtain ⟨c, rest, hchars⟩ :=
      List.exists_cons_of_ne_nil (mt String.toList_eq_nil_iff.mp hempty)
    have hparts := h.parts
    rw [hchars] at hparts
    have hstart := isNameStart_of_isNamePart (hparts c List.mem_cons_self)
    rw [IsName, hchars, List.all_eq_true.mpr hparts, startsWithDigit, List.head?_cons,
      Option.any_some, Option.any_some, hstart]
    simp

theorem Recases.isSpelling_append {ending : String} (h : Recases name shown)
    (hending : IsName ending) : IsSpelling (shown ++ ending) := by
  refine ⟨fun hempty => hending.ne_empty (String.append_eq_empty_iff.mp hempty).2, ?_⟩
  rw [String.toList_append, List.all_append, List.all_eq_true.mpr h.parts, hending.2, Bool.and_true]

end Text

theorem NamingPolicy.recases_apply {policy : NamingPolicy} (hpolicy : policy ≠ .keep)
    {name : String} (h : Sdl.IsName name) : Text.Recases name (policy.apply name) := by
  cases policy with
  | keep => exact absurd rfl hpolicy
  | pascal => exact Text.recases_pascalCase h
  | camel => exact Text.recases_camelCase h
  | snake => exact Text.recases_snakeCase h

end SelectionCompiler
