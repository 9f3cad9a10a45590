import SelectionCompiler.Text.Words

/-!
The words of a name are made of the name's own letters and digits: all of them, in order,
and no word is empty.
-/

namespace SelectionCompiler.Text

theorem mem_of_mem_splitRun {before : WordCase} {word run part : List Char} {c : Char}
    (hpart : part ∈ splitRun before word run) (hc : c ∈ part) : c ∈ word ∨ c ∈ run := by
  fun_induction splitRun before word run with
  | case1 => cases hpart
  | case2 before word last =>
      rw [List.mem_singleton] at hpart
      subst hpart
      simpa [or_comm] using hc
  | case3 before word first next rest _ ih =>
      rcases List.mem_cons.mp hpart with rfl | hpart
      · simp only [List.mem_reverse, List.mem_cons] at hc
        rcases hc with rfl | hc
        · exact Or.inr List.mem_cons_self
        · exact Or.inl hc
      · rcases ih hpart with hempty | hrest
        · cases hempty
        · exact Or.inr (List.mem_cons_of_mem _ hrest)
  | case4 before word first next rest _ _ ih =>
      rcases List.mem_cons.mp hpart with rfl | hpart
      · exact Or.inl (List.mem_reverse.mp hc)
      · rcases ih hpart with hfirst | hrest
        · exact Or.inr (List.mem_cons.mpr (Or.inl (List.mem_singleton.mp hfirst)))
        · exact Or.inr (List.mem_cons_of_mem _ hrest)
  | case5 before word first next rest _ _ ih =>
      rcases ih hpart with hword | hrest
      · rcases List.mem_cons.mp hword with rfl | hword
        · exact Or.inr List.mem_cons_self
        · exact Or.inl hword
      · exact Or.inr (List.mem_cons_of_mem _ hrest)

theorem mem_of_mem_runs {begun text run : List Char} {c : Char}
    (hrun : run ∈ runs begun text) (hc : c ∈ run) :
    c ∈ begun ∨ c ∈ text ∧ isAlphanumeric c = true := by
  induction text generalizing begun with
  | nil =>
      rw [runs, List.mem_singleton] at hrun
      subst hrun
      exact Or.inl (List.mem_reverse.mp hc)
  | cons first rest ih =>
      rw [runs] at hrun
      split at hrun
      · rename_i halphanumeric
        rcases ih hrun with hbegun | ⟨hrest, h⟩
        · rcases List.mem_cons.mp hbegun with rfl | hbegun
          · exact Or.inr ⟨List.mem_cons_self, halphanumeric⟩
          · exact Or.inl hbegun
        · exact Or.inr ⟨List.mem_cons_of_mem _ hrest, h⟩
      · rcases List.mem_cons.mp hrun with rfl | hrun
        · exact Or.inl (List.mem_reverse.mp hc)
        · rcases ih hrun with hempty | ⟨hrest, h⟩
          · cases hempty
          · exact Or.inr ⟨List.mem_cons_of_mem _ hrest, h⟩

theorem mem_of_mem_words {name : String} {word : List Char} {c : Char} (hword : word ∈ words name)
    (hc : c ∈ word) : c ∈ name.toList ∧ isAlphanumeric c = true := by
  obtain ⟨run, hrun, hpart⟩ := List.mem_flatMap.mp hword
  have hmem : c ∈ run := (mem_of_mem_splitRun hpart hc).resolve_left List.not_mem_nil
  exact (mem_of_mem_runs hrun hmem).resolve_left List.not_mem_nil

/-! ### All letters and digits -/

theorem flatten_splitRun (before : WordCase) (word : List Char) {run : List Char}
    (h : run ≠ []) : (splitRun before word run).flatten = word.reverse ++ run := by
  fun_induction splitRun before word run with
  | case1 => exact absurd rfl h
  | case2 => simp
  | case3 before word first next rest _ ih =>
      rw [List.flatten_cons, ih (List.cons_ne_nil next rest)]
      simp
  | case4 before word first next rest _ _ ih =>
      rw [List.flatten_cons, ih (List.cons_ne_nil next rest)]
      simp
  | case5 before word first next rest _ _ ih =>
      rw [ih (List.cons_ne_nil next rest)]
      simp

theorem flatten_runs (begun text : List Char) :
    (runs begun text).flatten = begun.reverse ++ text.filter isAlphanumeric := by
  induction text generalizing begun with
  | nil => simp [runs]
  | cons c rest ih =>
      rw [runs]
      split
      · rename_i hletter
        rw [ih, List.filter_cons_of_pos hletter]
        simp
      · rename_i hother
        rw [List.flatten_cons, ih, List.filter_cons_of_neg hother]
        simp

theorem flatten_words (name : String) :
    (words name).flatten = name.toList.filter isAlphanumeric := by
  have hrun : List.flatten ∘ splitRun .none [] = id := by
    funext run
    cases run with
    | nil => rfl
    | cons c rest => exact flatten_splitRun .none [] (List.cons_ne_nil c rest)
  rw [words, List.flatMap_def, List.flatten_flatten, List.map_map, hrun, List.map_id,
    flatten_runs, List.reverse_nil, List.nil_append]

/-- A word ends before an uppercase character only if it has one already. -/
theorem nil_notMem_splitRun {before : WordCase} {word : List Char} (run : List Char)
    (h : before = .upper → word ≠ []) : [] ∉ splitRun before word run := by
  fun_induction splitRun before word run with
  | case1 => exact List.not_mem_nil
  | case2 => simp
  | case3 before word first next rest _ ih =>
      rw [List.mem_cons, not_or]
      exact ⟨by simp, ih fun hupper => by cases hupper⟩
  | case4 before word first next rest _ hsplit ih =>
      simp only [Bool.and_eq_true, decide_eq_true_eq] at hsplit
      rw [List.mem_cons, not_or]
      exact ⟨by simpa using h hsplit.1.1, ih fun _ => List.cons_ne_nil _ _⟩
  | case5 before word first next rest _ _ ih => exact ih fun _ => List.cons_ne_nil _ _

theorem nil_notMem_words (name : String) : [] ∉ words name := by
  intro hmem
  obtain ⟨run, _, hnil⟩ := List.mem_flatMap.mp hmem
  exact nil_notMem_splitRun run (fun hupper => by cases hupper) hnil

/-! ### Words put together -/

theorem mem_of_mem_intercalate {separator : String} {parts : List String} {c : Char}
    (h : c ∈ (separator.intercalate parts).toList) :
    c ∈ separator.toList ∨ ∃ part ∈ parts, c ∈ part.toList := by
  induction parts with
  | nil =>
      rw [String.intercalate_nil] at h
      cases h
  | cons part rest ih =>
      by_cases hrest : rest = []
      · subst hrest
        rw [String.intercalate_singleton] at h
        exact Or.inr ⟨part, List.mem_cons_self, h⟩
      · rw [String.intercalate_cons_of_ne_nil hrest, String.toList_append, String.toList_append,
          List.mem_append, List.mem_append] at h
        rcases h with (hpart | hseparator) | hmem
        · exact Or.inr ⟨part, List.mem_cons_self, hpart⟩
        · exact Or.inl hseparator
        · obtain hseparator | ⟨other, hother, hc⟩ := ih hmem
          · exact Or.inl hseparator
          · exact Or.inr ⟨other, List.mem_cons_of_mem _ hother, hc⟩

/-- Shouted names consist of underscores and of the uppercase forms of the name's own
letters and digits. -/
theorem mem_shoutingCase {name : String} {c : Char} (h : c ∈ (shoutingCase name).toList) :
    c = '_' ∨ ∃ d ∈ name.toList, isAlphanumeric d = true ∧ c ∈ upperForm d := by
  rcases mem_of_mem_intercalate h with hunderscore | ⟨part, hpart, hc⟩
  · exact Or.inl (List.mem_singleton.mp hunderscore)
  · obtain ⟨word, hword, rfl⟩ := List.mem_map.mp hpart
    rw [String.toList_ofList, upperWord, List.mem_flatMap] at hc
    obtain ⟨d, hd, hc⟩ := hc
    obtain ⟨hname, halphanumeric⟩ := mem_of_mem_words hword hd
    exact Or.inr ⟨d, hname, halphanumeric, hc⟩

end SelectionCompiler.Text
