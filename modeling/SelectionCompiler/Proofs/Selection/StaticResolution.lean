import SelectionCompiler.Proofs.Selection.Resolution
import SelectionCompiler.Proofs.Selection.StaticTable

/-!
Resolving tables and resolving in an arena. Main statement: in a family without cycles of
nested links the recursion over tables ends, and at every depth a table resolves like its
selection in the arena that registers all tables of the family under names of their own.
-/

namespace SelectionCompiler.StaticFamily

open StaticItem

variable {f : StaticFamily} {names : String → String} {items : List StaticItem}

/-! ### The recursion -/

/-- What comes of an item with `depth` levels left, its own included. -/
def resolveItem (f : StaticFamily) (depth : Nat) : StaticItem → Element
  | .field name => .field name
  | .nested name table => .nested name (f.resolve (depth - 1) (f.items table))
  | .reference name table =>
      if 1 < depth then .nested name (f.resolve (depth - 1) (f.items table)) else .field name

/-- For the outer depth and items the inner ones have to be resolved first. -/
def Calls (f : StaticFamily) (inner outer : Nat × List StaticItem) : Prop :=
  ∃ name table, inner = (outer.1 - 1, f.items table) ∧
    (.nested name table ∈ outer.2 ∨ .reference name table ∈ outer.2 ∧ 1 < outer.1)

theorem cutWithin_eq_cutAll (f : StaticFamily) (names : String → String) (fuel : Nat)
    (items : List StaticItem) :
    f.cutWithin fuel items = Element.cutAll (f.inlinedWithin names fuel items) := by
  induction fuel generalizing items with
  | zero =>
      rw [cutWithin, inlinedWithin, Element.cutAll_eq_map, List.map_map]
      refine List.map_congr_left fun item _ => ?_
      cases item <;> rfl
  | succ fuel ih =>
      rw [cutWithin, inlinedWithin, Element.cutAll_eq_map, List.map_map]
      refine List.map_congr_left fun item _ => ?_
      cases item with
      | field name => rfl
      | nested name table => exact congrArg (Element.nested name) (ih (f.items table))
      | reference name table => rfl

theorem resolve_zero (f : StaticFamily) (names : String → String) (items : List StaticItem) :
    f.resolve 0 items = Element.cutAll (f.inlined names items) :=
  f.cutWithin_eq_cutAll names f.tables.size items

/-- Depth zero has no fuel of its own any more. -/
theorem Acyclic.resolve_eq_map (h : f.Acyclic) (depth : Nat) (items : List StaticItem) :
    f.resolve depth items = items.map (f.resolveItem depth) := by
  cases depth with
  | zero =>
      rw [f.resolve_zero id, h.inlined_eq_map, Element.cutAll_eq_map, List.map_map]
      refine List.map_congr_left fun item _ => ?_
      cases item with
      | field name => rfl
      | nested name table => exact congrArg (Element.nested name) (f.resolve_zero id _).symm
      | reference name table => rfl
  | succ depth =>
      refine List.map_congr_left fun item _ => ?_
      cases item with
      | field name => rfl
      | nested name table => rfl
      | reference name table => simp [resolveItem]

theorem Acyclic.acc_calls (h : f.Acyclic) (depth : Nat) (items : List StaticItem) :
    Acc f.Calls (depth, items) := by
  induction depth generalizing items with
  | succ depth ih =>
      refine .intro _ ?_
      rintro _ ⟨name, table, rfl, _⟩
      exact ih (f.items table)
  | zero =>
      -- without depth only nested links are followed
      induction items using h.nested_induction with
      | step items ih =>
          refine .intro _ ?_
          rintro _ ⟨name, table, rfl, hnested | ⟨_, hdepth⟩⟩
          · exact ih name table hnested
          · exact absurd hdepth (Nat.not_lt_zero 1)

/-! ### The arena of a family -/

/-- Each table has a submodel under its name, with the nested tables inlined and the names
of tables for references. -/
def Registers (f : StaticFamily) (names : String → String) (a : Arena) : Prop :=
  ∀ table items, f.tables.get? table = some items →
    ∃ m, a.get? (names table) = some m ∧ f.Inlines names items m.selection

def arena (f : StaticFamily) (names : String → String) : Arena :=
  ⟨.ofList (f.tables.toList.map fun entry =>
    (names entry.1, ⟨names entry.1, 0, f.inlined names entry.2⟩))⟩

theorem Acyclic.registers_arena (h : f.Acyclic) (hnames : (f.tables.keys.map names).Nodup) :
    f.Registers names (f.arena names) := by
  intro table items hget
  have hdistinct : ((f.tables.toList.map fun entry =>
      (names entry.1, (⟨names entry.1, 0, f.inlined names entry.2⟩ : Submodel))).map
        Prod.fst).Nodup := by
    simpa [OrdMap.keys, Function.comp_def] using hnames
  refine ⟨⟨names table, 0, f.inlined names items⟩, ?_, h.inlines_inlined items⟩
  rw [arena, Arena.get?, OrdMap.get?_eq_some_iff, OrdMap.toList_ofList hdistinct]
  exact List.mem_map.mpr ⟨(table, items), OrdMap.get?_eq_some_iff.mp hget, rfl⟩

/-- All links of the items lead to tables of the family. -/
def LinksInside (f : StaticFamily) (items : List StaticItem) : Prop :=
  ∀ item ∈ items, ∀ table, item.link? = some table → ∃ found, f.tables.get? table = some found

theorem linksInside_items (hclosed : f.isClosed = true) (table : String) :
    f.LinksInside (f.items table) := by
  intro item hitem link hlink
  unfold StaticFamily.items at hitem
  cases hget : f.tables.get? table with
  | none =>
      rw [hget] at hitem
      cases hitem
  | some items =>
      rw [hget] at hitem
      have hvalue : items ∈ f.tables.values := OrdMap.mem_values_iff.mpr ⟨table, hget⟩
      have hcontains := List.all_eq_true.mp (List.all_eq_true.mp hclosed items hvalue) item hitem
      rw [hlink] at hcontains
      exact Option.isSome_iff_exists.mp hcontains

/-- The induction is on the depth and runs for all items at once: a reference may lead back to
the table it stands in. -/
theorem Acyclic.resolve_eq_resolve_inlined (h : f.Acyclic) (hclosed : f.isClosed = true)
    {a : Arena} (ha : f.Registers names a) (depth : Nat) (hitems : f.LinksInside items) :
    f.resolve depth items = a.resolve depth (f.inlined names items) := by
  induction depth generalizing items with
  | zero => rw [f.resolve_zero names, Arena.resolve]
  | succ depth ih =>
      rw [h.resolve_eq_map, a.resolve_eq_map, h.inlined_eq_map, List.map_map]
      refine List.map_congr_left fun item hitem => ?_
      cases item with
      | field name => rfl
      | nested name table =>
          exact congrArg (Element.nested name) (ih (linksInside_items hclosed table))
      | reference name table =>
          obtain ⟨found, hget⟩ := hitems _ hitem table rfl
          obtain ⟨m, hregistered, hinlines⟩ := ha table found hget
          have hfound : f.items table = found := by simp [StaticFamily.items, hget]
          have htarget := ih (linksInside_items hclosed table)
          rw [hfound, ← h.inlines_iff.mp hinlines] at htarget
          simp only [Function.comp_apply, resolveItem, element, Arena.resolveElement, hregistered,
            hfound, Nat.add_sub_cancel, htarget]

/-- Over the tables of a family without cycles of nested links the recursion ends, with the
results that its equation asks for; and in every arena that registers the tables, the submodel
of a table resolves like the table. There is such an arena under any distinct names. -/
theorem resolve_registered (f : StaticFamily) (names : String → String)
    (hclosed : f.isClosed = true) (hacyclic : f.Acyclic)
    (hnames : (f.tables.keys.map names).Nodup) :
    WellFounded f.Calls ∧
      (∀ depth items, f.resolve depth items = items.map (f.resolveItem depth)) ∧
      f.Registers names (f.arena names) ∧
      ∀ a, f.Registers names a → ∀ table items, f.tables.get? table = some items →
        ∃ m, a.get? (names table) = some m ∧
          ∀ depth, f.resolve depth items = a.resolve depth m.selection := by
  refine ⟨⟨fun call => hacyclic.acc_calls call.1 call.2⟩, hacyclic.resolve_eq_map,
    hacyclic.registers_arena hnames, fun a ha table items hget => ?_⟩
  obtain ⟨m, hregistered, hinlines⟩ := ha table items hget
  have hlinks := linksInside_items hclosed table
  rw [show f.items table = items by simp [StaticFamily.items, hget]] at hlinks
  refine ⟨m, hregistered, fun depth => ?_⟩
  rw [hacyclic.inlines_iff.mp hinlines]
  exact hacyclic.resolve_eq_resolve_inlined hclosed ha depth hlinks

/-- References go around in circles here, one of them back from a nested table to the table
it is nested in. -/
def circling : StaticFamily := ⟨.ofList [
  ("Feed", [.nested "page" "Page", .reference "owner" "User", .nested "next" "Page"]),
  ("Page", [.field "size", .reference "feed" "Feed", .nested "cursor" "Cursor"]),
  ("User", [.reference "self" "User", .nested "cursor" "Cursor"]), ("Cursor", [.field "at"])]⟩

theorem resolve_registered_circling :
    circling.isClosed = true ∧ circling.Acyclic ∧
      (circling.tables.keys.map (· ++ "Map")).Nodup ∧
      ∃ m, (circling.arena (· ++ "Map")).get? "FeedMap" = some m ∧
        circling.resolve 0 (circling.items "Feed") =
          (circling.arena (· ++ "Map")).resolve 0 m.selection ∧
        circling.resolve 3 (circling.items "Feed") =
          (circling.arena (· ++ "Map")).resolve 3 m.selection := by
  have hclosed : circling.isClosed = true := by decide
  have hacyclic : circling.Acyclic := by decide
  have hnames : (circling.tables.keys.map (· ++ "Map")).Nodup := by decide
  obtain ⟨-, -, harena, hresolve⟩ :=
    resolve_registered circling (· ++ "Map") hclosed hacyclic hnames
  obtain ⟨m, hget, hdepth⟩ := hresolve _ harena "Feed" (circling.items "Feed") (by decide)
  exact ⟨hclosed, hacyclic, hnames, m, hget, hdepth 0, hdepth 3⟩

end SelectionCompiler.StaticFamily
