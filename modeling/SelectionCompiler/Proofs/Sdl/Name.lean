import SelectionCompiler.Sdl.Token
import SelectionCompiler.Text.Quoted
import Mathlib.Data.List.Basic

/-!
The names of types and fields. Their characters are among the first 128, and none of
them needs an escape between quotes.
-/

namespace SelectionCompiler

namespace Sdl

/-- A name: letters, digits and underscores, the first of which is no digit. -/
def IsName (name : String) : Prop :=
  name.toList.head?.any Token.isNameStart = true ∧ name.toList.all Token.isNamePart = true

instance (name : String) : Decidable (IsName name) := by
  unfold IsName
  infer_instance

theorem IsName.ne_empty {name : String} (h : IsName name) : name ≠ "" := by
  rintro rfl
  cases h.1

theorem IsName.isNamePart {name : String} (h : IsName name) {c : Char} (hc : c ∈ name.toList) :
    Token.isNamePart c = true :=
  List.all_eq_true.mp h.2 c hc

/-! ### Characters -/

theorem isAscii_of_isNamePart {c : Char} (h : Token.isNamePart c = true) : c.toNat < 128 := by
  delta Token.isNamePart Char.isAlphanum Char.isAlpha Char.isUpper Char.isLower Char.isDigit at h
  simp only [Bool.or_eq_true, Bool.and_eq_true, decide_eq_true_eq, beq_iff_eq, ge_iff_le,
    UInt32.le_iff_toNat_le] at h
  rcases h with ((⟨_, hupper⟩ | ⟨_, hlower⟩) | ⟨_, hdigit⟩) | rfl
  · exact Nat.lt_of_le_of_lt hupper (by decide)
  · exact Nat.lt_of_le_of_lt hlower (by decide)
  · exact Nat.lt_of_le_of_lt hdigit (by decide)
  · decide

/-- What holds of the characters with the first 128 codes, checked one by one, holds of
the characters of names. -/
theorem forall_isNamePart {p : Char → Prop}
    (h : ∀ n < 128, Token.isNamePart (Char.ofNat n) = true → p (Char.ofNat n)) {c : Char}
    (hc : Token.isNamePart c = true) : p c := by
  have hofNat := h c.toNat (isAscii_of_isNamePart hc)
  rw [Char.ofNat_toNat] at hofNat
  exact hofNat hc

theorem escapeChar_of_isNamePart {c : Char} (h : Token.isNamePart c = true) :
    Text.escapeChar c = [c] :=
  forall_isNamePart (p := fun c => Text.escapeChar c = [c]) (by decide +kernel) h

theorem IsName.toList_quoted {name : String} (h : IsName name) :
    (Text.quoted name).toList = '"' :: (name.toList ++ ['"']) := by
  have hplain : name.toList.flatMap Text.escapeChar = name.toList := by
    rw [List.flatMap_congr fun c hc => escapeChar_of_isNamePart (h.isNamePart hc)]
    exact List.flatMap_singleton' name.toList
  rw [Text.quoted, String.toList_ofList, hplain]

/-! ### Names put together -/

/-- A text of characters of names. It is a name unless a digit comes first. -/
def IsSpelling (text : String) : Prop := text ≠ "" ∧ text.toList.all Token.isNamePart = true

variable {name rest : String}

theorem IsName.isSpelling (h : IsName name) : IsSpelling name := ⟨h.ne_empty, h.2⟩

theorem isName_append_iff (hname : name ≠ "") (hrest : rest.toList.all Token.isNamePart = true) :
    IsName (name ++ rest) ↔ IsName name := by
  have hne : name.toList ≠ [] := mt String.toList_eq_nil_iff.mp hname
  rw [IsName, IsName, String.toList_append, List.head?_append_of_ne_nil _ hne, List.all_append,
    hrest, Bool.and_true]

theorem IsName.append (h : IsName name) (hrest : rest.toList.all Token.isNamePart = true) :
    IsName (name ++ rest) :=
  (isName_append_iff h.ne_empty hrest).mpr h

theorem isNameStart_of_isNamePart {c : Char} (h : Token.isNamePart c = true) :
    Token.isNameStart c = !c.isDigit :=
  forall_isNamePart (p := fun c => Token.isNameStart c = !c.isDigit) (by decide +kernel) h

end Sdl

end SelectionCompiler
