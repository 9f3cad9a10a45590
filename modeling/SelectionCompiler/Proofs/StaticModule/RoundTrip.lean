import SelectionCompiler.Proofs.StaticModule.Lines

/-!
Reading back the text of a module. Every part of a line is read off together with
what follows it, so that the parts put together give the line, the lines give
the paragraphs, and these the module. Main statement: the text of a readable
module stands for that module and for no other.
-/

namespace SelectionCompiler

namespace Line

/-! ### Parts of lines -/

theorem isPrefixOf?_append (xs ys : Line) : xs.isPrefixOf? (xs ++ ys) = some ys := by
  induction xs with
  | nil => cases ys <;> rfl
  | cons x rest ih => simp [List.isPrefixOf?, ih]

theorem after?_append (text : String) (rest : Line) :
    after? text (text.toList ++ rest) = some rest :=
  isPrefixOf?_append text.toList rest

theorem before?_append (text : String) (line : Line) :
    before? text (line ++ text.toList) = some line := by
  rw [before?, List.isSuffixOf?, List.reverse_append, isPrefixOf?_append, Option.map_some,
    List.reverse_reverse]

section

variable {p : Char → Bool} {xs : Line} {c : Char}

theorem takeWhile_append_cons (hxs : ∀ x ∈ xs, p x = true) (hc : p c = false) (rest : Line) :
    (xs ++ c :: rest).takeWhile p = xs := by
  rw [List.takeWhile_append_of_pos hxs, List.takeWhile_cons_of_neg (by simp [hc]),
    List.append_nil]

theorem dropWhile_append_cons (hxs : ∀ x ∈ xs, p x = true) (hc : p c = false) (rest : Line) :
    (xs ++ c :: rest).dropWhile p = c :: rest := by
  rw [List.dropWhile_append_of_pos hxs, List.dropWhile_cons_of_neg (by simp [hc])]

end

/-- A name without a mark is not taken for a raw one: only another character of an
identifier can come after its first one. -/
theorem ne_raw {name : String} (h : Identifier.Spellable name) {c : Char} (hc : c ≠ '#')
    (rest other : Line) : name.toList ++ c :: rest ≠ 'r' :: '#' :: other := by
  intro heq
  match hname : name.toList with
  | [] => exact h.1 (String.toList_eq_nil_iff.mp hname)
  | [_] =>
      rw [hname] at heq
      exact hc (List.cons.inj (List.cons.inj heq).2).1
  | _ :: second :: _ =>
      rw [hname] at heq
      have hsecond := List.all_eq_true.mp h.2 second (by simp [hname])
      rw [(List.cons.inj (List.cons.inj heq).2).1] at hsecond
      exact absurd hsecond (by decide)

theorem identifier?_append {identifier : String} (h : Identifier.WellFormed identifier) {c : Char}
    (hc : Identifier.isChar c = false) (hmark : c ≠ '#') (rest : Line) :
    identifier? (identifier.toList ++ c :: rest) = some (identifier, c :: rest) := by
  obtain ⟨name, hname, hidentifier⟩ := h
  have hne : name.toList.isEmpty = false := by
    simpa [List.isEmpty_eq_false_iff] using hname.1
  have hchars := List.all_eq_true.mp hname.2
  have htake := takeWhile_append_cons hchars hc rest
  have hdrop := dropWhile_append_cons hchars hc rest
  rcases hidentifier with rfl | rfl
  · -- the line has no mark, so the name begins at its first character
    unfold identifier?
    split
    rename_i mark line heq
    split at heq
    · rename_i other hraw
      exact absurd hraw (ne_raw hname hmark rest other)
    · cases heq
      simp [htake, hdrop, hne]
  · rw [String.toList_append]
    simp [identifier?, htake, hdrop, hne]

theorem number?_append (n : Nat) {c : Char} (hc : c.isDigit = false) (rest : Line) :
    number? (n.repr.toList ++ c :: rest) = some (n, c :: rest) := by
  have hdigits : ∀ d ∈ n.repr.toList, d.isDigit = true := fun d => Identifier.isDigit_of_mem_repr
  have hne : n.repr.toList.isEmpty = false := by simp
  simp only [number?, takeWhile_append_cons hdigits hc, dropWhile_append_cons hdigits hc, hne,
    Bool.false_eq_true, if_false]
  rw [Nat.toList_repr, Nat.ofDigitChars_ten_toDigits]

theorem quoted?_append {name : String} (h : Sdl.IsName name) (rest : Line) :
    quoted? ((Text.quoted name).toList ++ rest) = some (name, rest) := by
  have hplain : ∀ c ∈ name.toList, (c ≠ '"' && c ≠ '\\') = true := by
    intro c hc
    exact Sdl.forall_isNamePart (p := fun c => (c ≠ '"' && c ≠ '\\') = true) (by decide +kernel)
      (h.isNamePart hc)
  have hquote : ('"' ≠ '"' && '"' ≠ '\\') = false := by decide
  have hopen : after? "\"" ('"' :: (name.toList ++ '"' :: rest)) =
      some (name.toList ++ '"' :: rest) := after?_append "\"" _
  have hclose : after? "\"" ('"' :: rest) = some rest := after?_append "\"" rest
  rw [h.toList_quoted, List.cons_append, List.append_assoc, List.singleton_append, quoted?, hopen]
  simp only [Option.bind_eq_bind, Option.bind_some, takeWhile_append_cons hplain hquote,
    dropWhile_append_cons hplain hquote, hclose, String.ofList_toList, Option.pure_def]

/-! ### Items and declarations -/

theorem leaf?_append {name : String} (h : Sdl.IsName name) :
    leaf? ((Text.quoted name).toList ++ ")".toList) = some name := by
  rw [leaf?, quoted?_append h]
  rfl

theorem link?_append {name table : String} (h : Sdl.IsName name)
    (htable : Identifier.WellFormed table) :
    link? ((Text.quoted name).toList ++ (", &".toList ++ (table.toList ++ ")".toList))) =
      some (name, table) := by
  have hclose : ")".toList = [')'] := by simp
  have hident : identifier? (table.toList ++ ")".toList) = some (table, ")".toList) := by
    rw [hclose]
    exact identifier?_append htable (by decide) (by decide) []
  rw [link?, quoted?_append h]
  simp only [Option.bind_eq_bind, Option.bind_some, after?_append, hident, if_true, Option.pure_def]

theorem item?_line {item : StaticItem} (h : item.Readable) : item? item.line = some item := by
  have hline : item.line = "    ".toList ++ (item.text.toList ++ ",".toList) := by
    rw [StaticItem.line, String.toList_append, String.toList_append, List.append_assoc]
  rw [hline, item?, after?_append, Option.bind_eq_bind, Option.bind_some, before?_append,
    Option.bind_some]
  cases item with
  | field name =>
      have hname : Sdl.IsName name := h
      have htext : (StaticItem.field name).text.toList =
          "StaticSelection::Field(".toList ++ ((Text.quoted name).toList ++ ")".toList) := by
        show ("StaticSelection::Field(" ++ Text.quoted name ++ ")").toList = _
        rw [String.toList_append, String.toList_append, List.append_assoc]
      rw [htext, after?_append, Option.bind_some, leaf?_append hname]
      rfl
  | nested name table =>
      obtain ⟨hname, htable⟩ := h
      have htext : (StaticItem.nested name table).text.toList = "StaticSelection::Nested(".toList ++
          ((Text.quoted name).toList ++ (", &".toList ++ (table.toList ++ ")".toList))) := by
        show ("StaticSelection::Nested(" ++ Text.quoted name ++ ", &" ++ table ++ ")").toList = _
        simp only [String.toList_append, List.append_assoc]
      have hfield (rest : Line) :
          after? "StaticSelection::Field(" ("StaticSelection::Nested(".toList ++ rest) = none := by
        simp [after?, List.isPrefixOf?]
      rw [htext, hfield, after?_append, Option.bind_some, link?_append hname htable]
      rfl
  | reference name table =>
      obtain ⟨hname, htable⟩ := h
      have htext : (StaticItem.reference name table).text.toList =
          "StaticSelection::Reference(".toList ++
            ((Text.quoted name).toList ++ (", &".toList ++ (table.toList ++ ")".toList))) := by
        show ("StaticSelection::Reference(" ++ Text.quoted name ++ ", &" ++ table ++ ")").toList = _
        simp only [String.toList_append, List.append_assoc]
      have hfield (rest : Line) : after? "StaticSelection::Field("
          ("StaticSelection::Reference(".toList ++ rest) = none := by
        simp [after?, List.isPrefixOf?]
      have hnested (rest : Line) : after? "StaticSelection::Nested("
          ("StaticSelection::Reference(".toList ++ rest) = none := by
        simp [after?, List.isPrefixOf?]
      rw [htext, hfield, hnested, after?_append, Option.bind_some,
        link?_append hname htable]
      rfl

theorem constant?_constantOf {identifier : String} (h : Identifier.WellFormed identifier)
    (value : Nat) : constant? (constantOf identifier value) = some (.depth identifier value) := by
  have hcolon : ": usize = ".toList = ':' :: " usize = ".toList := by simp
  have hend : ";".toList = [';'] := by simp
  have hident (rest : Line) : identifier? (identifier.toList ++ (": usize = ".toList ++ rest)) =
      some (identifier, ": usize = ".toList ++ rest) := by
    rw [hcolon]
    exact identifier?_append h (by decide) (by decide) _
  have hvalue : number? (value.repr.toList ++ ";".toList) = some (value, ";".toList) := by
    rw [hend]
    exact number?_append value (by decide) []
  show constant? ("pub const " ++ identifier ++ ": usize = " ++ value.repr ++ ";").toList = _
  simp only [String.toList_append, List.append_assoc]
  rw [constant?, after?_append]
  simp only [Option.bind_eq_bind, Option.bind_some, hident, after?_append, hvalue, if_true,
    Option.pure_def]

theorem head?_headOf {identifier : String} (h : Identifier.WellFormed identifier) (size : Nat) :
    head? (headOf identifier size) = some (identifier, size) := by
  have hcolon : ": [StaticSelection; ".toList = ':' :: " [StaticSelection; ".toList := by simp
  have hend : "] = [".toList = ']' :: " = [".toList := by simp
  have hident (rest : Line) :
      identifier? (identifier.toList ++ (": [StaticSelection; ".toList ++ rest)) =
        some (identifier, ": [StaticSelection; ".toList ++ rest) := by
    rw [hcolon]
    exact identifier?_append h (by decide) (by decide) _
  have hsize : number? (size.repr.toList ++ "] = [".toList) = some (size, "] = [".toList) := by
    rw [hend]
    exact number?_append size (by decide) _
  show head? ("pub static " ++ identifier ++ ": [StaticSelection; " ++ size.repr
    ++ "] = [").toList = _
  simp only [String.toList_append, List.append_assoc]
  rw [head?, after?_append]
  simp only [Option.bind_eq_bind, Option.bind_some, hident, after?_append, hsize, if_true,
    Option.pure_def]

theorem items?_append {items : List StaticItem} (h : ∀ item ∈ items, item.Readable)
    (rest : List Line) :
    items? (items.map StaticItem.line ++ "];".toList :: rest) = some (items, rest) := by
  induction items with
  | nil => simp [items?]
  | cons item others ih =>
      have hitem : item? item.line = some item := item?_line (h item List.mem_cons_self)
      have hne : item.line ≠ "];".toList := by
        -- items are indented, and the closing line is not
        intro heq
        have hindent : after? "    " "];".toList = none := by simp [after?, List.isPrefixOf?]
        rw [heq, item?, hindent] at hitem
        cases hitem
      rw [List.map_cons, List.cons_append, items?, if_neg hne, hitem,
        ih fun other hother => h other (List.mem_cons_of_mem _ hother)]
      rfl

theorem table?_tableOf {identifier doc : String} {items : List StaticItem}
    (h : (Declaration.table identifier doc items).Readable) {rest : List Line}
    {constants : List Declaration} (hrest : rest.mapM constant? = some constants) :
    table? (tableOf identifier doc items ++ rest) =
      some (.table identifier doc items :: constants) := by
  obtain ⟨hidentifier, _, hitems⟩ := h
  have hdoc : after? "/// " ("/// " ++ doc).toList = some doc.toList := by
    rw [String.toList_append, after?_append]
  simp only [tableOf, List.cons_append, List.append_assoc, List.nil_append]
  rw [table?, hdoc, head?_headOf hidentifier]
  simp only [Option.bind_eq_bind, Option.bind_some, items?_append hitems, hrest]
  simp

/-! ### Lines and paragraphs -/

theorem lines?_join {lines : List Line} (h : ∀ line ∈ lines, '\n' ∉ line) :
    lines? (join lines) = some lines := by
  have hparts : (join lines).splitOn '\n' = lines ++ [[]] := by
    induction lines with
    | nil => rfl
    | cons line rest ih =>
        have hjoin : join (line :: rest) = line ++ '\n' :: join rest := by simp [join]
        rw [hjoin, List.splitOn_append_cons_self_of_not_mem (h line List.mem_cons_self),
          ih fun other hother => h other (List.mem_cons_of_mem _ hother), List.cons_append]
  simp [lines?, hparts]

theorem paragraphs_nil_cons (lines : List Line) :
    paragraphs ([] :: lines) = [] :: paragraphs lines := by
  rw [paragraphs, List.splitOn_cons_eq_if_modifyHead, if_pos (by simp), ← paragraphs]

theorem paragraphs_cons {line : Line} (hne : line ≠ []) {lines first : List Line}
    {others : List (List Line)} (hlines : paragraphs lines = first :: others) :
    paragraphs (line :: lines) = (line :: first) :: others := by
  rw [paragraphs] at hlines ⊢
  rw [List.splitOn_cons_eq_if_modifyHead, if_neg (by simpa using hne), hlines, List.modifyHead_cons]

theorem paragraphs_append {block : List Line} (h : [] ∉ block) {lines first : List Line}
    {others : List (List Line)} (hlines : paragraphs lines = first :: others) :
    paragraphs (block ++ lines) = (block ++ first) :: others := by
  induction block with
  | nil => exact hlines
  | cons line rest ih =>
      rw [List.mem_cons, not_or] at h
      exact paragraphs_cons (Ne.symm h.1) (ih h.2)

theorem nil_notMem_tableOf (identifier doc : String) (items : List StaticItem) :
    [] ∉ tableOf identifier doc items := by
  simp [tableOf, headOf, StaticItem.line]

/-- A table begins a paragraph of its own, and a constant joins the paragraph before
it. -/
theorem read_declarations {ds : List Declaration} (h : ∀ d ∈ ds, d.Readable) :
    ∃ first others constants tables,
      paragraphs (ds.flatMap Declaration.lines) = first :: others ∧
        first.mapM constant? = some constants ∧ others.mapM table? = some tables ∧
        constants ++ tables.flatten = ds := by
  induction ds with
  | nil => exact ⟨[], [], [], [], rfl, rfl, rfl, rfl⟩
  | cons d rest ih =>
      have hd := h d List.mem_cons_self
      obtain ⟨first, others, constants, tables, hparagraphs, hfirst, hothers, hrest⟩ :=
        ih fun other hother => h other (List.mem_cons_of_mem _ hother)
      cases d with
      | depth identifier value =>
          -- no empty line comes before a constant, so the paragraph begun goes on with it
          refine ⟨constantOf identifier value :: first, others,
            .depth identifier value :: constants, tables, ?_, ?_, hothers, ?_⟩
          · exact paragraphs_cons (by simp [constantOf]) hparagraphs
          · rw [List.mapM_cons, constant?_constantOf hd value, hfirst]
            rfl
          · rw [List.cons_append, hrest]
      | table identifier doc items =>
          refine ⟨[], (tableOf identifier doc items ++ first) :: others, [],
            (.table identifier doc items :: constants) :: tables, ?_, rfl, ?_, ?_⟩
          · have hblock := paragraphs_append (nil_notMem_tableOf identifier doc items) hparagraphs
            rw [List.flatMap_cons, Declaration.lines, List.cons_append, paragraphs_nil_cons, hblock]
          · rw [List.mapM_cons, table?_tableOf hd hfirst, hothers]
            rfl
          · rw [List.nil_append, List.flatten_cons, List.cons_append, hrest]

end Line

open Line in
/-- The text of a readable module stands for the module. -/
theorem StaticModule.Readable.ofText?_text {m : StaticModule} (h : m.Readable) :
    ofText? m.text = some m := by
  obtain ⟨first, others, constants, tables, hparagraphs, hfirst, hothers, hds⟩ :=
    read_declarations h.declarations
  have hpreamble : preamble? (("use " ++ m.helpersPath ++ "::StaticSelection;").toList :: first) =
      some (m.helpersPath, constants) := by
    rw [String.append_assoc, String.toList_append, String.toList_append, preamble?, after?_append]
    simp only [Option.bind_eq_bind, Option.bind_some, before?_append, hfirst, Option.pure_def,
      String.ofList_toList]
  have htop : paragraphs m.lines = ["// Generated by schemamap. Do not edit.".toList] ::
      (("use " ++ m.helpersPath ++ "::StaticSelection;").toList :: first) :: others := by
    refine paragraphs_cons (by simp) ?_
    rw [paragraphs_nil_cons, paragraphs_cons (by simp) hparagraphs]
  rw [ofText?, toList_text, lines?_join h.oneLine]
  simp only [Option.bind_eq_bind, Option.bind_some, htop, hpreamble, hothers, if_true, hds,
    Option.pure_def]

end SelectionCompiler
