import SelectionCompiler.StaticModule.Identifier
import SelectionCompiler.Text.CharClass
import Mathlib.Data.List.Perm.Subperm
import Mathlib.Data.List.Nodup

/-!
Claimed identifiers are new. The numbered identifiers of a name differ from one
another and from the unnumbered one, so that among as many of them as there are
identifiers in use one is always free.
-/

namespace SelectionCompiler.Identifier

/-- The letters, digits and underscores; beyond the first 128, every character counts. -/
def isChar (c : Char) : Bool := c.isAlphanum || c == '_' || !Text.isAscii c

/-- A name that can be written as an identifier, by itself or as a raw one. -/
def Spellable (name : String) : Prop := name ≠ "" ∧ name.toList.all isChar = true

def WellFormed (identifier : String) : Prop :=
  ∃ name, Spellable name ∧ (identifier = name ∨ identifier = "r#" ++ name)

/-! ### Numbered names -/

theorem isDigit_of_mem_repr {n : Nat} {c : Char} (h : c ∈ n.repr.toList) : c.isDigit = true := by
  rw [Nat.toList_repr] at h
  exact Nat.isDigit_of_mem_toDigits (by decide) (by decide) h

def endsInDigit (name : String) : Bool := name.toList.getLast?.any Char.isDigit

theorem endsInDigit_append_repr (name : String) (n : Nat) :
    endsInDigit (name ++ n.repr) = true := by
  have hne : n.repr.toList ≠ [] := by simp
  have hlast : (name ++ n.repr).toList.getLast? = some (n.repr.toList.getLast hne) := by
    rw [String.toList_append, List.getLast?_append_of_ne_nil _ hne,
      List.getLast?_eq_some_getLast hne]
  rw [endsInDigit, hlast, Option.any_some]
  exact isDigit_of_mem_repr (List.getLast_mem hne)

theorem endsInDigit_of_mem_reserved {name : String} (h : name ∈ reserved) :
    endsInDigit name = false ∧ endsInDigit (name ++ "_") = false := by
  revert name
  decide +kernel

theorem endsInDigit_of_mem_keywords {name : String} (h : name ∈ keywords) :
    endsInDigit name = false ∧ endsInDigit ("r#" ++ name) = false := by
  revert name
  decide +kernel

theorem ofName_eq_self {name : String} (hreserved : name ∉ reserved) (hkeyword : name ∉ keywords) :
    ofName name = name := by
  simp [ofName, hreserved, hkeyword]

theorem ofName_of_endsInDigit {name : String} (h : endsInDigit name = true) :
    ofName name = name := by
  apply ofName_eq_self
  · intro hmem
    rw [(endsInDigit_of_mem_reserved hmem).1] at h
    cases h
  · intro hmem
    rw [(endsInDigit_of_mem_keywords hmem).1] at h
    cases h

theorem numbered_eq (wanted : String) (n : Nat) : numbered wanted n = wanted ++ "_" ++ n.repr :=
  ofName_of_endsInDigit (endsInDigit_append_repr _ n)

theorem numbered_injective (wanted : String) : Function.Injective (numbered wanted) := by
  intro m n h
  rw [numbered_eq, numbered_eq, String.append_right_inj] at h
  have hdigits := congrArg String.toList h
  rw [Nat.toList_repr, Nat.toList_repr] at hdigits
  have hvalue := congrArg (fun digits => Nat.ofDigitChars 10 digits 0) hdigits
  simpa only [Nat.ofDigitChars_ten_toDigits] using hvalue

theorem ofName_ne_numbered (wanted : String) (n : Nat) : ofName wanted ≠ numbered wanted n := by
  intro h
  have hends : endsInDigit (ofName wanted) = true := by
    rw [h, numbered_eq]
    exact endsInDigit_append_repr _ n
  by_cases hreserved : wanted ∈ reserved
  · simp [ofName, hreserved, (endsInDigit_of_mem_reserved hreserved).2] at hends
  · by_cases hkeyword : wanted ∈ keywords
    · simp [ofName, hreserved, hkeyword, (endsInDigit_of_mem_keywords hkeyword).2] at hends
    · -- the unnumbered identifier is the name itself, which is shorter
      rw [ofName_eq_self hreserved hkeyword, numbered_eq] at h
      have hlength := congrArg String.length h
      simp only [String.length_append] at hlength
      have hone : "_".length = 1 := by decide
      omega

/-! ### Claims -/

/-- Identifiers in use, one of them the unnumbered one, leave a number free. -/
theorem exists_numbered_notMem {used : List String} {wanted : String} (h : ofName wanted ∈ used) :
    ∃ n ∈ numbers used, numbered wanted n ∉ used := by
  by_contra hnone
  simp only [not_exists, not_and, not_not] at hnone
  have hnumbers : (numbers used).Nodup :=
    List.nodup_range.map fun m n (heq : m + 2 = n + 2) => by omega
  have hdistinct : (ofName wanted :: (numbers used).map (numbered wanted)).Nodup := by
    refine List.nodup_cons.mpr ⟨?_, hnumbers.map (numbered_injective wanted)⟩
    rintro hmem
    obtain ⟨n, _, heq⟩ := List.mem_map.mp hmem
    exact ofName_ne_numbered wanted n heq.symm
  have hsubset : ofName wanted :: (numbers used).map (numbered wanted) ⊆ used := by
    intro identifier hmem
    rcases List.mem_cons.mp hmem with rfl | hmem
    · exact h
    · obtain ⟨n, hn, rfl⟩ := List.mem_map.mp hmem
      exact hnone n hn
  -- one identifier more than there are in use
  have hlength := (hdistinct.subperm hsubset).length_le
  simp only [List.length_cons, List.length_map, numbers, List.length_range] at hlength
  omega

theorem claim_of_notMem {used : List String} {wanted : String} (h : ofName wanted ∉ used) :
    claim used wanted = ofName wanted := if_neg h

/-- A name whose identifier is in use gets the least number, from two on, that is free. -/
theorem claim_of_mem {used : List String} {wanted : String} (h : ofName wanted ∈ used) :
    ∃ n, 2 ≤ n ∧ n ≤ used.length + 1 ∧ claim used wanted = numbered wanted n ∧
      numbered wanted n ∉ used ∧ ∀ m, 2 ≤ m → m < n → numbered wanted m ∈ used := by
  cases hfind : (numbers used).find? fun n => numbered wanted n ∉ used with
  | none =>
      obtain ⟨n, hn, hfree⟩ := exists_numbered_notMem h
      simpa [hfree] using List.find?_eq_none.mp hfind n hn
  | some n =>
      have hclaim : claim used wanted = numbered wanted n := by rw [claim, if_pos h, hfind]
      -- places in the list of numbers count from zero
      rw [numbers, List.find?_map, Option.map_eq_some_iff] at hfind
      obtain ⟨i, hi, rfl⟩ := hfind
      obtain ⟨hfree, hrange, hbefore⟩ := List.find?_range_eq_some.mp hi
      refine ⟨i + 2, by omega, ?_, hclaim, by simpa using hfree, ?_⟩
      · have hlt := List.mem_range.mp hrange
        omega
      · intro m hm hlt
        have htaken := hbefore (m - 2) (by omega)
        rw [Function.comp_apply, Nat.sub_add_cancel hm] at htaken
        simpa using htaken

theorem claim_eq (used : List String) (wanted : String) :
    claim used wanted = ofName wanted ∨ ∃ n, claim used wanted = numbered wanted n := by
  by_cases h : ofName wanted ∈ used
  · obtain ⟨n, _, _, hclaim, _⟩ := claim_of_mem h
    exact Or.inr ⟨n, hclaim⟩
  · exact Or.inl (claim_of_notMem h)

theorem claim_notMem (used : List String) (wanted : String) : claim used wanted ∉ used := by
  by_cases h : ofName wanted ∈ used
  · obtain ⟨n, _, _, hclaim, hfree, _⟩ := claim_of_mem h
    rwa [hclaim]
  · rwa [claim_of_notMem h]

/-! ### Well-formed identifiers -/

theorem Spellable.append {name rest : String} (h : Spellable name)
    (hrest : rest.toList.all isChar = true) : Spellable (name ++ rest) := by
  refine ⟨?_, ?_⟩
  · intro hempty
    exact h.1 (String.append_eq_empty_iff.mp hempty).1
  · rw [String.toList_append, List.all_append, h.2, hrest, Bool.and_true]

theorem Spellable.prepend {name rest : String} (h : Spellable rest)
    (hname : name.toList.all isChar = true) : Spellable (name ++ rest) := by
  refine ⟨?_, ?_⟩
  · intro hempty
    exact h.1 (String.append_eq_empty_iff.mp hempty).2
  · rw [String.toList_append, List.all_append, hname, h.2, Bool.and_true]

theorem all_isChar_repr (n : Nat) : n.repr.toList.all isChar = true := by
  rw [List.all_eq_true]
  intro c hc
  simp [isChar, Char.isAlphanum, isDigit_of_mem_repr hc]

theorem Spellable.wellFormed_ofName {name : String} (h : Spellable name) :
    WellFormed (ofName name) := by
  unfold ofName
  split
  · exact ⟨name ++ "_", h.append (by decide), Or.inl rfl⟩
  · split
    · exact ⟨name, h, Or.inr rfl⟩
    · exact ⟨name, h, Or.inl rfl⟩

theorem Spellable.wellFormed_claim {wanted : String} (h : Spellable wanted) (used : List String) :
    WellFormed (claim used wanted) := by
  rcases claim_eq used wanted with heq | ⟨n, heq⟩
  · rw [heq]
    exact h.wellFormed_ofName
  · rw [heq]
    have hnumbered : Spellable (wanted ++ "_" ++ n.repr) :=
      (h.append (by decide)).append (all_isChar_repr n)
    exact hnumbered.wellFormed_ofName

end SelectionCompiler.Identifier
