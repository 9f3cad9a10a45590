import SelectionCompiler.Proofs.Sdl.Name
import SelectionCompiler.Proofs.StaticModule.Reader

/-!
The text of a module as lines. No part of a readable module goes over the end of a
line, so that line feeds stand in the text at the ends of its lines only.
-/

namespace SelectionCompiler

/-! ### Readable parts -/

def Text.OneLine (text : String) : Prop := '\n' ∉ text.toList

instance (text : String) : Decidable (Text.OneLine text) :=
  inferInstanceAs (Decidable ('\n' ∉ text.toList))

theorem Text.oneLine_append {text rest : String} :
    OneLine (text ++ rest) ↔ OneLine text ∧ OneLine rest := by
  rw [OneLine, String.toList_append, List.mem_append, not_or]
  rfl

def StaticItem.Readable : StaticItem → Prop
  | .field name => Sdl.IsName name
  | .nested name table => Sdl.IsName name ∧ Identifier.WellFormed table
  | .reference name table => Sdl.IsName name ∧ Identifier.WellFormed table

def Declaration.Readable : Declaration → Prop
  | .table identifier doc items =>
      Identifier.WellFormed identifier ∧ Text.OneLine doc ∧ ∀ item ∈ items, item.Readable
  | .depth identifier _ => Identifier.WellFormed identifier

/-- Identifiers are well formed, items are called by names, and neither the comments
nor the imported path go over the end of a line. -/
structure StaticModule.Readable (m : StaticModule) : Prop where
  path : Text.OneLine m.helpersPath
  declarations : ∀ d ∈ m.declarations, d.Readable

/-! ### Lines -/

def StaticItem.line (item : StaticItem) : Line := ("    " ++ item.text ++ ",").toList

namespace Line

def headOf (identifier : String) (size : Nat) : Line :=
  ("pub static " ++ identifier ++ ": [StaticSelection; " ++ size.repr ++ "] = [").toList

def constantOf (identifier : String) (value : Nat) : Line :=
  ("pub const " ++ identifier ++ ": usize = " ++ value.repr ++ ";").toList

def tableOf (identifier doc : String) (items : List StaticItem) : List Line :=
  ("/// " ++ doc).toList :: "#[allow(non_upper_case_globals)]".toList ::
    headOf identifier items.length :: (items.map StaticItem.line ++ ["];".toList])

/-- The text of lines, each ended by a line feed. -/
def join (lines : List Line) : List Char := lines.flatMap (· ++ ['\n'])

end Line

open Line

/-- The lines of a declaration, of which a table begins with an empty one. -/
def Declaration.lines : Declaration → List Line
  | .table identifier doc items => [] :: tableOf identifier doc items
  | .depth identifier value => [constantOf identifier value]

theorem Declaration.toList_text (d : Declaration) : d.text.toList = join d.lines := by
  cases d with
  | table identifier doc items =>
      -- unfolding the text by its name takes the literals apart one character at a time
      show ("\n/// " ++ doc ++ "\n#[allow(non_upper_case_globals)]\npub static " ++ identifier
        ++ ": [StaticSelection; " ++ items.length.repr ++ "] = [\n"
        ++ String.join (items.map fun item => "    " ++ item.text ++ ",\n") ++ "];\n").toList =
          join ([] :: _)
      simp [join, tableOf, headOf, StaticItem.line, String.toList_append, String.toList_join,
        List.flatMap_map]
  | depth identifier value =>
      show ("pub const " ++ identifier ++ ": usize = " ++ value.repr ++ ";\n").toList = join [_]
      simp [join, constantOf]

/-! ### Line ends -/

open Text

theorem Identifier.WellFormed.oneLine {identifier : String} (h : WellFormed identifier) :
    OneLine identifier := by
  obtain ⟨name, hname, hidentifier⟩ := h
  have hplain : OneLine name := by
    intro hmem
    exact absurd (List.all_eq_true.mp hname.2 _ hmem) (by decide)
  rcases hidentifier with rfl | rfl
  · exact hplain
  · exact oneLine_append.mpr ⟨by decide, hplain⟩

theorem Sdl.IsName.oneLine {name : String} (h : IsName name) : OneLine name := by
  intro hmem
  exact absurd (h.isNamePart hmem) (by decide)

theorem Text.oneLine_repr (n : Nat) : OneLine n.repr := by
  intro hmem
  exact absurd (Identifier.isDigit_of_mem_repr hmem) (by decide)

theorem StaticItem.Readable.oneLine {item : StaticItem} (h : item.Readable) :
    OneLine item.text := by
  have hquoted {name : String} (hname : Sdl.IsName name) : OneLine (quoted name) := by
    have hplain := hname.oneLine
    rw [OneLine] at hplain ⊢
    simp [hname.toList_quoted, hplain]
  cases item with
  | field name =>
      show OneLine ("StaticSelection::Field(" ++ quoted name ++ ")")
      simp only [oneLine_append]
      exact ⟨⟨by decide, hquoted h⟩, by decide⟩
  | nested name table =>
      show OneLine ("StaticSelection::Nested(" ++ quoted name ++ ", &" ++ table ++ ")")
      simp only [oneLine_append]
      exact ⟨⟨⟨⟨by decide, hquoted h.1⟩, by decide⟩, h.2.oneLine⟩, by decide⟩
  | reference name table =>
      show OneLine ("StaticSelection::Reference(" ++ quoted name ++ ", &" ++ table ++ ")")
      simp only [oneLine_append]
      exact ⟨⟨⟨⟨by decide, hquoted h.1⟩, by decide⟩, h.2.oneLine⟩, by decide⟩

theorem Declaration.Readable.oneLine {d : Declaration} (h : d.Readable) :
    ∀ line ∈ d.lines, '\n' ∉ line := by
  cases d with
  | table identifier doc items =>
      obtain ⟨hidentifier, hdoc, hitems⟩ := h
      intro line hline
      simp only [lines, tableOf, List.mem_cons, List.mem_append, List.mem_map, List.not_mem_nil,
        or_false] at hline
      rcases hline with rfl | rfl | rfl | rfl | ⟨item, hitem, rfl⟩ | rfl
      · exact List.not_mem_nil
      · exact oneLine_append.mpr ⟨by decide, hdoc⟩
      · exact (by decide : OneLine "#[allow(non_upper_case_globals)]")
      · show OneLine ("pub static " ++ identifier ++ ": [StaticSelection; " ++ items.length.repr
          ++ "] = [")
        simp only [oneLine_append]
        exact ⟨⟨⟨⟨by decide, hidentifier.oneLine⟩, by decide⟩, oneLine_repr _⟩, by decide⟩
      · show OneLine ("    " ++ item.text ++ ",")
        simp only [oneLine_append]
        exact ⟨⟨by decide, (hitems item hitem).oneLine⟩, by decide⟩
      · exact (by decide : OneLine "];")
  | depth identifier value =>
      have hidentifier : Identifier.WellFormed identifier := h
      intro line hline
      rw [lines, List.mem_singleton] at hline
      subst hline
      show OneLine ("pub const " ++ identifier ++ ": usize = " ++ value.repr ++ ";")
      simp only [oneLine_append]
      exact ⟨⟨⟨⟨by decide, hidentifier.oneLine⟩, by decide⟩, oneLine_repr _⟩, by decide⟩

namespace StaticModule

variable {m : StaticModule}

def lines (m : StaticModule) : List Line :=
  "// Generated by schemamap. Do not edit.".toList :: [] ::
    ("use " ++ m.helpersPath ++ "::StaticSelection;").toList ::
      m.declarations.flatMap Declaration.lines

theorem toList_text (m : StaticModule) : m.text.toList = join m.lines := by
  have hdeclarations : (String.join (m.declarations.map Declaration.text)).toList =
      join (m.declarations.flatMap Declaration.lines) := by
    simp [String.toList_join, List.flatMap_map, join, List.flatMap_assoc, Declaration.toList_text]
  show (header ++ "\nuse " ++ m.helpersPath ++ "::StaticSelection;\n" ++ _).toList = _
  rw [String.toList_append, hdeclarations]
  simp [header, lines, join]

theorem Readable.oneLine (h : m.Readable) : ∀ line ∈ m.lines, '\n' ∉ line := by
  intro line hline
  simp only [lines, List.mem_cons, List.mem_flatMap] at hline
  rcases hline with rfl | rfl | rfl | ⟨d, hd, hline⟩
  · exact (by decide : Text.OneLine "// Generated by schemamap. Do not edit.")
  · exact List.not_mem_nil
  · show Text.OneLine ("use " ++ m.helpersPath ++ "::StaticSelection;")
    simp only [Text.oneLine_append]
    exact ⟨⟨by decide, h.path⟩, by decide⟩
  · exact (h.declarations d hd).oneLine line hline

end StaticModule

end SelectionCompiler
