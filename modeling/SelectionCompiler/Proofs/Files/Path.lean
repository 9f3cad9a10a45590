import SelectionCompiler.Files.Path
import Mathlib.Data.List.Basic

/-!
Paths by their segments. Segments without a slash in them are those of the path in which they
are joined by slashes; another extension changes the last segment of a path and no other, and
leaves that one as it is exactly when it had this extension before.
-/

namespace SelectionCompiler.Path

variable {path name last : String} {names others rest : List String}

/-! ### Segments -/

/-- Whether no name has a slash in it. -/
def Slashless (names : List String) : Prop := ∀ name ∈ names, '/' ∉ name.toList

theorem notMem_of_mem_splitOn {separator : Char} {cs part : List Char}
    (h : part ∈ cs.splitOn separator) : separator ∉ part := by
  induction cs generalizing part with
  | nil =>
      rw [List.splitOn_nil, List.mem_singleton] at h
      simp [h]
  | cons c cs ih =>
      rw [List.splitOn_cons_eq_if_modifyHead] at h
      split at h
      · rcases List.mem_cons.mp h with rfl | hrest
        · exact List.not_mem_nil
        · exact ih hrest
      · rename_i hne
        match hparts : cs.splitOn separator with
        | [] => exact absurd hparts (List.splitOn_ne_nil separator cs)
        | first :: parts =>
            rw [hparts] at h ih
            rcases List.mem_cons.mp h with rfl | hrest
            · rw [List.mem_cons, not_or]
              exact ⟨fun heq => hne (by simp [heq]), ih List.mem_cons_self⟩
            · exact ih (List.mem_cons_of_mem _ hrest)

theorem slashless_allSegments (path : String) : Slashless (allSegments path) := by
  intro name hname
  obtain ⟨part, hpart, rfl⟩ := List.mem_map.mp hname
  rw [String.toList_ofList]
  exact notMem_of_mem_splitOn hpart

theorem slashless_segments (path : String) : Slashless (segments path) :=
  fun name hname => slashless_allSegments path name (List.mem_filter.mp hname).1

theorem slashless_reversedSegments (path : String) : Slashless (reversedSegments path) :=
  fun name hname => slashless_allSegments path name
    (List.mem_reverse.mp ((List.dropWhile_sublist _).subset hname))

theorem allSegments_intercalate (hne : names ≠ []) (h : Slashless names) :
    allSegments ("/".intercalate names) = names := by
  have hparts : ∀ part ∈ names.map String.toList, '/' ∉ part := by simpa [Slashless] using h
  have hslash : "/".toList = ['/'] := rfl
  rw [allSegments, String.toList_intercalate, hslash,
    List.splitOn_intercalate '/' hparts (by simpa using hne)]
  simp

theorem eq_of_intercalate_eq (hnames : names ≠ []) (hothers : others ≠ [])
    (h : Slashless names) (h' : Slashless others)
    (heq : "/".intercalate names = "/".intercalate others) : names = others := by
  rw [← allSegments_intercalate hnames h, heq, allSegments_intercalate hothers h']

theorem exists_reversedSegments (h : (fileName? path).isSome) :
    ∃ last rest, reversedSegments path = last :: rest ∧ last ≠ ".." := by
  unfold fileName? at h
  split at h
  · cases h
  · rename_i last rest heq
    exact ⟨last, rest, heq, by rintro rfl; simp at h⟩

theorem isEmptySegment_of_reversedSegments (h : reversedSegments path = last :: rest) :
    isEmptySegment last = false := by
  have hhead := List.head?_dropWhile_not isEmptySegment (allSegments path).reverse
  rwa [← reversedSegments, h] at hhead

theorem filter_dropWhile {α : Type} (p : α → Bool) (xs : List α) :
    (xs.dropWhile p).filter (!p ·) = xs.filter (!p ·) := by
  induction xs with
  | nil => rfl
  | cons x xs ih => by_cases h : p x = true <;> simp [h, ih]

theorem segments_of_reversedSegments (h : reversedSegments path = last :: rest) :
    segments path = (rest.filter (!isEmptySegment ·)).reverse ++ [last] := by
  have hreverse : (segments path).reverse = last :: rest.filter (!isEmptySegment ·) := by
    rw [segments, ← List.filter_reverse, ← filter_dropWhile, ← reversedSegments, h,
      List.filter_cons_of_pos (by simp [isEmptySegment_of_reversedSegments h])]
  rw [← List.reverse_reverse (segments path), hreverse, List.reverse_cons]

/-! ### Extensions -/

theorem exists_eq_append_dot {cs extension : List Char}
    (h : (cs.reverse.takeWhile (· != '.')).reverse = extension)
    (hlength : extension.length ≠ cs.length) : ∃ before, cs = before ++ '.' :: extension := by
  have hsplit := List.takeWhile_append_dropWhile (p := (· != '.')) (l := cs.reverse)
  rw [List.reverse_eq_iff.mp h] at hsplit
  match hdrop : cs.reverse.dropWhile (· != '.') with
  | [] =>
      rw [hdrop, List.append_nil] at hsplit
      exact absurd (by simpa using congrArg List.length hsplit) hlength
  | c :: after =>
      have hdot := List.head?_dropWhile_not (· != '.') cs.reverse
      rw [hdrop] at hdot hsplit
      have hc : c = '.' := by simpa using hdot
      refine ⟨after.reverse, ?_⟩
      rw [← List.reverse_reverse cs, ← hsplit, hc]
      simp

/-- A name is its stem, with the extension behind a dot if there is one. -/
theorem splitName_spec (name : String) :
    splitName name = (name, none) ∨
      ∃ stem extension, splitName name = (stem, some extension) ∧
        stem ≠ "" ∧ stem ++ "." ++ extension = name := by
  simp only [splitName]
  generalize htake : (name.toList.reverse.takeWhile (· != '.')).reverse = extension
  split
  · exact .inl rfl
  · rename_i hsplit
    simp only [Bool.or_eq_true, decide_eq_true_eq, not_or] at hsplit
    obtain ⟨before, hname⟩ := exists_eq_append_dot htake hsplit.1
    have hbefore : name.toList.take (name.toList.length - extension.length - 1) = before := by
      rw [hname, List.length_append, List.length_cons]
      exact List.take_left' (by omega)
    rw [hbefore] at hsplit ⊢
    refine .inr ⟨_, _, rfl, ?_, ?_⟩
    · rintro hempty
      simp [String.ofList_eq_empty_iff] at hsplit hempty
      exact hsplit.2 hempty
    · rw [← String.ofList_toList (s := name), hname, String.append_assoc]
      simp [String.ofList_append]

/-- The name with its extension replaced, or with one if it has none. -/
def renamed (name extension : String) : String := (splitName name).1 ++ "." ++ extension

variable {extension : String}

theorem renamed_eq_iff : renamed name extension = name ↔ (splitName name).2 = some extension := by
  rcases splitName_spec name with hsplit | ⟨stem, found, hsplit, _, hname⟩
  · rw [renamed, hsplit]
    constructor
    · intro (h : name ++ "." ++ extension = name)
      have hlength := congrArg String.length h
      have hdot : ".".length = 1 := rfl
      rw [String.length_append, String.length_append, hdot] at hlength
      omega
    · intro h
      cases h
  · rw [renamed, hsplit]
    constructor
    · intro h
      have happend : stem ++ "." ++ extension = stem ++ "." ++ found := h.trans hname.symm
      rw [(String.append_right_inj (stem ++ ".")).mp happend]
    · intro h
      rw [← Option.some.inj h, hname]

theorem length_lt_renamed (name extension : String) :
    extension.length < (renamed name extension).length := by
  have hdot : ".".length = 1 := rfl
  rw [renamed, String.length_append, String.length_append, hdot]
  omega

theorem notMem_renamed (hname : '/' ∉ name.toList) (hextension : '/' ∉ extension.toList) :
    '/' ∉ (renamed name extension).toList := by
  have hstem : '/' ∉ (splitName name).1.toList := by
    rcases splitName_spec name with hsplit | ⟨stem, found, hsplit, _, rfl⟩
    · rwa [hsplit]
    · rw [hsplit]
      simp at hname ⊢
      tauto
  simp [renamed, hstem, hextension]

theorem isEmptySegment_renamed (hname : isEmptySegment name = false) :
    isEmptySegment (renamed name extension) = false := by
  have hstem : (splitName name).1.toList ≠ [] := by
    rw [ne_eq, String.toList_eq_nil_iff]
    rcases splitName_spec name with hsplit | ⟨stem, found, hsplit, hne, rfl⟩
    · rw [hsplit]
      rintro rfl
      cases hname
    · rwa [hsplit]
  obtain ⟨c, cs, hcons⟩ := List.exists_cons_of_ne_nil hstem
  have hchars : (renamed name extension).toList = c :: (cs ++ '.' :: extension.toList) := by
    simp [renamed, hcons]
  have hempty : renamed name extension ≠ "" := by
    intro heq
    simp [heq] at hchars
  have hdot : renamed name extension ≠ "." := by
    intro heq
    simp [heq] at hchars
  simp [isEmptySegment, hempty, hdot]

/-- Another extension changes the last segment of a path and no other. -/
theorem segments_withExtension (h : reversedSegments path = last :: rest) (hlast : last ≠ "..")
    (hextension : '/' ∉ extension.toList) :
    segments (withExtension path extension) =
      (rest.filter (!isEmptySegment ·)).reverse ++ [renamed last extension] := by
  have hnames := slashless_reversedSegments path
  rw [h] at hnames
  have hslashless : Slashless (renamed last extension :: rest).reverse := by
    intro name hname
    rcases List.mem_cons.mp (List.mem_reverse.mp hname) with rfl | hrest
    · exact notMem_renamed (hnames _ List.mem_cons_self) hextension
    · exact hnames _ (List.mem_cons_of_mem _ hrest)
  have hempty : isEmptySegment (renamed last extension) = false :=
    isEmptySegment_renamed (isEmptySegment_of_reversedSegments h)
  have hpath : withExtension path extension =
      "/".intercalate (renamed last extension :: rest).reverse := by
    rw [withExtension, h]
    simp only [if_neg hlast]
    rfl
  rw [segments, hpath, allSegments_intercalate (by simp) hslashless, List.filter_reverse,
    List.filter_cons_of_pos (by simp [hempty]), List.reverse_cons]

end SelectionCompiler.Path
