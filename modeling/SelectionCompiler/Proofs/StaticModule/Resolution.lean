import SelectionCompiler.Proofs.StaticModule.Tables
import SelectionCompiler.Proofs.Selection.Arena

/-!
Resolution in the tables of a module and in the arena they come from. Both go down by
the same depth, one from table to table and one from submodel to submodel, and
give the same selection.
-/

namespace SelectionCompiler

open StaticModule Element

/-- A reference leads to a registered type. -/
def Arena.Registers (a : Arena) : Element → Prop
  | .reference _ type => a.contains type = true
  | _ => True

instance (a : Arena) : DecidablePred a.Registers
  | .field _ => isTrue trivial
  | .nested _ _ => isTrue trivial
  | .reference _ type => inferInstanceAs (Decidable (a.contains type = true))

namespace StaticModule

/-- Under the identifier of each registered type the module has the table of the type's
selection. -/
def Holds (m : StaticModule) (names : TableNames) (a : Arena) : Prop :=
  ∀ type target, a.get? type = some target → ∃ doc own below,
    .table (tableOf names type) doc own ∈ m.declarations ∧
      Emits names target.selection own below ∧ below.Sublist m.declarations

variable {m : StaticModule} {names : TableNames} {a : Arena}

theorem cutWithin_cons (f : StaticFamily) (fuel : Nat) (item : StaticItem)
    (items : List StaticItem) :
    f.cutWithin fuel (item :: items) = f.cutWithin fuel [item] ++ f.cutWithin fuel items := by
  cases fuel with
  | zero => simp [StaticFamily.cutWithin]
  | succ fuel => simp [StaticFamily.cutWithin]

/-- With as much fuel as the selection is high, the items are cut as the selection. -/
theorem cutWithin_family (hdistinct : m.identifiers.Nodup) {s : Selection}
    {items : List StaticItem} {ds : List Declaration} (h : Emits names s items ds)
    (hsub : ds.Sublist m.declarations) {fuel : Nat} (hfuel : heightAll s ≤ fuel) :
    m.family.cutWithin fuel items = cutAll s := by
  induction h generalizing fuel with
  | nil => cases fuel <;> rfl
  | field name _ ih =>
      have hrest := ih hsub (Nat.max_le.mp hfuel).2
      rw [cutWithin_cons, hrest]
      cases fuel <;> rfl
  | reference name type _ ih =>
      have hrest := ih hsub (Nat.max_le.mp hfuel).2
      rw [cutWithin_cons, hrest]
      cases fuel <;> rfl
  | nested name identifier doc _ _ ihchildren ihrest =>
      obtain ⟨hheight, hfuel⟩ := Nat.max_le.mp hfuel
      -- a step of fuel goes down by a level, while the rest of the list keeps all of it
      obtain ⟨fuel, rfl⟩ : ∃ n, fuel = n + 1 := ⟨fuel - 1, by rw [height] at hheight; omega⟩
      have hown := items_family hdistinct (hsub.subset List.mem_cons_self)
      have hsub := (List.sublist_cons_self _ _).trans hsub
      have hchildren := ihchildren ((List.sublist_append_left _ _).trans hsub)
        (Nat.le_of_succ_le_succ hheight)
      have hrest := ihrest ((List.sublist_append_right _ _).trans hsub) hfuel
      rw [cutWithin_cons, hrest]
      simp only [StaticFamily.cutWithin, List.map_cons, List.map_nil, hown]
      rw [hchildren]
      rfl

/-- The induction is on the depth and runs for all selections at once: a reference may
lead back to the table it stands in. -/
theorem resolve_family (hdistinct : m.identifiers.Nodup) (hholds : m.Holds names a)
    (hregisters : ∀ type target, a.get? type = some target →
      target.selection.Everywhere a.Registers)
    (depth : Nat) {s : Selection} {items : List StaticItem} {ds : List Declaration}
    (h : Emits names s items ds) (hsub : ds.Sublist m.declarations)
    (hs : s.Everywhere a.Registers) : m.family.resolve depth items = a.resolve depth s := by
  induction depth generalizing s items ds with
  | zero =>
      have hheight := Nat.le_trans h.heightAll_le_length
        (length_le_size_family hdistinct hsub h.isTable)
      rw [StaticFamily.resolve, Arena.resolve, cutWithin_family hdistinct h hsub hheight]
  | succ depth ihdepth =>
      rw [StaticFamily.resolve, Arena.resolve]
      -- the second induction only goes along the list
      induction h with
      | nil => rfl
      | field name _ ih =>
          rw [List.map_cons, List.map_cons, ih hsub (Selection.everywhere_cons.mp hs).2.2]
      | reference name type _ ih =>
          obtain ⟨hregistered, _, hrest⟩ := Selection.everywhere_cons.mp hs
          obtain ⟨target, hget⟩ : ∃ target, a.get? type = some target :=
            Option.isSome_iff_exists.mp hregistered
          obtain ⟨doc, own, below, hdeclared, hemits, hbelow⟩ := hholds type target hget
          have htarget := ihdepth hemits hbelow (hregisters type target hget)
          rw [List.map_cons, List.map_cons, ih hsub hrest]
          dsimp only
          rw [items_family hdistinct hdeclared, htarget, hget]
      | nested name identifier doc hown _ _ ih =>
          obtain ⟨_, hchildren, hrest⟩ := Selection.everywhere_cons.mp hs
          have hdeclared := items_family hdistinct (hsub.subset List.mem_cons_self)
          have hsub := (List.sublist_cons_self _ _).trans hsub
          have hnested := ihdepth hown ((List.sublist_append_left _ _).trans hsub) hchildren
          rw [List.map_cons, List.map_cons, ih ((List.sublist_append_right _ _).trans hsub) hrest]
          dsimp only
          rw [hdeclared, hnested]

/-! ### Links -/

def LinksItems (m : StaticModule) (items : List StaticItem) : Prop :=
  ∀ item ∈ items, ∀ link, item.link? = some link → m.family.tables.contains link = true

/-- Whatever the items of the declared tables link to are tables of the module. -/
def Links (m : StaticModule) (ds : List Declaration) : Prop :=
  ∀ identifier doc own, .table identifier doc own ∈ ds → m.LinksItems own

theorem links_cons {identifier doc : String} {own : List StaticItem} {ds : List Declaration}
    (hown : m.LinksItems own) (h : m.Links ds) : m.Links (.table identifier doc own :: ds) := by
  intro other otherDoc items hmem
  rcases List.mem_cons.mp hmem with heq | hmem
  · cases heq
    exact hown
  · exact h other otherDoc items hmem

theorem links_append {ds ds' : List Declaration} (h : m.Links ds) (h' : m.Links ds') :
    m.Links (ds ++ ds') := by
  intro identifier doc own hmem
  exact (List.mem_append.mp hmem).elim (h identifier doc own) (h' identifier doc own)

theorem links_flatten {blocks : List (List Declaration)} (h : ∀ block ∈ blocks, m.Links block) :
    m.Links blocks.flatten := by
  intro identifier doc own hmem
  obtain ⟨block, hblock, hmem⟩ := List.mem_flatten.mp hmem
  exact h block hblock identifier doc own hmem

theorem links_depth (identifier : String) (value : Nat) : m.Links [.depth identifier value] := by
  intro other doc own hmem
  cases List.mem_singleton.mp hmem

theorem contains_family (hdistinct : m.identifiers.Nodup) {identifier doc : String}
    {own : List StaticItem} (hmem : .table identifier doc own ∈ m.declarations) :
    m.family.tables.contains identifier = true := by
  rw [OrdMap.contains, get?_family hdistinct hmem]
  rfl

/-- A reference leads to a type with a table in the module. -/
def Declares (m : StaticModule) (names : TableNames) : Element → Prop
  | .reference _ type => ∃ doc own, .table (tableOf names type) doc own ∈ m.declarations
  | _ => True

theorem Holds.declares (h : m.Holds names a) {e : Element} (he : a.Registers e) :
    m.Declares names e := by
  cases e with
  | field name => trivial
  | nested name children => trivial
  | reference name type =>
      obtain ⟨target, hget⟩ := Option.isSome_iff_exists.mp he
      obtain ⟨doc, own, _, hdeclared, _⟩ := h type target hget
      exact ⟨doc, own, hdeclared⟩

theorem links_of_emits (hdistinct : m.identifiers.Nodup) {s : Selection} {items : List StaticItem}
    {ds : List Declaration} (h : Emits names s items ds) (hsub : ds.Sublist m.declarations)
    (hs : s.Everywhere (m.Declares names)) : m.LinksItems items ∧ m.Links ds := by
  induction h with
  | nil => exact ⟨fun _ h => absurd h List.not_mem_nil, fun _ _ _ h => absurd h List.not_mem_nil⟩
  | field name _ ih =>
      obtain ⟨hitems, hbelow⟩ := ih hsub (Selection.everywhere_cons.mp hs).2.2
      refine ⟨List.forall_mem_cons.mpr ⟨?_, hitems⟩, hbelow⟩
      intro link hlink
      cases hlink
  | reference name type _ ih =>
      obtain ⟨⟨doc, own, hdeclared⟩, _, hrest⟩ := Selection.everywhere_cons.mp hs
      obtain ⟨hitems, hbelow⟩ := ih hsub hrest
      refine ⟨List.forall_mem_cons.mpr ⟨?_, hitems⟩, hbelow⟩
      rintro link ⟨rfl⟩
      exact contains_family hdistinct hdeclared
  | nested name identifier doc _ _ ihchildren ihrest =>
      obtain ⟨_, hchildren, hrest⟩ := Selection.everywhere_cons.mp hs
      have hdeclared := hsub.subset List.mem_cons_self
      have hsub := (List.sublist_cons_self _ _).trans hsub
      obtain ⟨hown, hbelow⟩ := ihchildren ((List.sublist_append_left _ _).trans hsub) hchildren
      obtain ⟨hitems, hafter⟩ := ihrest ((List.sublist_append_right _ _).trans hsub) hrest
      refine ⟨List.forall_mem_cons.mpr ⟨?_, hitems⟩, links_cons hown (links_append hbelow hafter)⟩
      rintro link ⟨rfl⟩
      exact contains_family hdistinct hdeclared

/-- The tables of a selection link to one another and to those of the types it refers
to. -/
theorem links_table (hdistinct : m.identifiers.Nodup) {s : Selection} {own : List StaticItem}
    {below : List Declaration} (h : Emits names s own below) (hsub : below.Sublist m.declarations)
    (hs : s.Everywhere (m.Declares names)) (identifier doc : String) :
    m.Links (.table identifier doc own :: below) := by
  obtain ⟨hown, hbelow⟩ := links_of_emits hdistinct h hsub hs
  exact links_cons hown hbelow

theorem isClosed_family (hdistinct : m.identifiers.Nodup) (h : m.Links m.declarations) :
    m.family.isClosed = true := by
  rw [StaticFamily.isClosed, OrdMap.values, toList_family hdistinct]
  simp only [List.all_eq_true, List.mem_map, List.mem_filterMap]
  rintro _ ⟨entry, ⟨d, hd, hentry⟩, rfl⟩ item hitem
  cases d with
  | table identifier doc own =>
      cases hentry
      split
      · rename_i link hlink
        exact h identifier doc own hd item hitem link hlink
      · rfl
  | depth identifier value => cases hentry

end StaticModule

end SelectionCompiler
