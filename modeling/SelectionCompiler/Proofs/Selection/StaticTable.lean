import SelectionCompiler.Selection.StaticTable
import SelectionCompiler.Proofs.OrdMap
import Mathlib.Data.Finset.Card
import Mathlib.Logic.Relation

/-!
Families of tables whose nested links make no cycle. Every walk along nested links passes
a table at most once, so that the number of tables is fuel enough for all that is done along
such walks. With the nested tables in the places of the links to them, the items of a table
become a selection; its equation has no fuel any more.
-/

namespace SelectionCompiler

namespace StaticItem

/-- The element for an item, where `names` says how tables are called and `children` what
stands for a nested one. -/
def element (names : String → String) (children : String → Selection) : StaticItem → Element
  | .field name => .field name
  | .nested name table => .nested name (children table)
  | .reference name table => .reference name (names table)

theorem map_element_congr {names : String → String} {children others : String → Selection}
    {items : List StaticItem}
    (h : ∀ name table, .nested name table ∈ items → children table = others table) :
    items.map (element names children) = items.map (element names others) := by
  refine List.map_congr_left fun item hitem => ?_
  cases item with
  | field name => rfl
  | nested name table => rw [element, element, h name table hitem]
  | reference name table => rfl

end StaticItem

namespace StaticFamily

open StaticItem

/-! ### Cycles -/

/-- A nested link leads from the table `outer` to the table `inner`. -/
def NestedIn (f : StaticFamily) (inner outer : String) : Prop :=
  ∃ name, .nested name inner ∈ f.items outer

/-- No table is nested in itself, directly or by way of others. -/
def Acyclic (f : StaticFamily) : Prop := ∀ table, ¬Relation.TransGen f.NestedIn table table

/-- At most `n` lists of items are nested in one another, from the given one on; an empty
list is not counted. -/
def NestsWithin (f : StaticFamily) : Nat → List StaticItem → Prop
  | 0, items => items = []
  | n + 1, items => ∀ item ∈ items,
      match item with
      | .nested _ table => f.NestsWithin n (f.items table)
      | _ => True

variable {f : StaticFamily} {items : List StaticItem} {table inner outer : String} {n : Nat}

instance decidableNestsWithin (f : StaticFamily) :
    ∀ (n : Nat) (items : List StaticItem), Decidable (f.NestsWithin n items)
  | 0, items => inferInstanceAs (Decidable (items = []))
  | n + 1, items =>
      have _ : DecidablePred fun item : StaticItem =>
          match item with
          | .nested _ table => f.NestsWithin n (f.items table)
          | _ => True
        | .nested _ table => f.decidableNestsWithin n (f.items table)
        | .field _ => isTrue trivial
        | .reference _ _ => isTrue trivial
      inferInstanceAs (Decidable (∀ item ∈ items, _))

theorem items_of_notMem (h : table ∉ f.tables.keys) : f.items table = [] := by
  rw [items, OrdMap.get?_eq_none_iff.mpr h]
  rfl

theorem NestedIn.mem_keys (h : f.NestedIn inner outer) : outer ∈ f.tables.keys := by
  obtain ⟨name, hmem⟩ := h
  by_contra hkey
  rw [items_of_notMem hkey] at hmem
  cases hmem

theorem NestsWithin.not_transGen (h : f.NestsWithin n (f.items table)) :
    ¬Relation.TransGen f.NestedIn table table := by
  intro hcycle
  obtain ⟨inner, hback, name, hmem⟩ := Relation.TransGen.tail'_iff.mp hcycle
  induction n generalizing table inner name with
  | zero =>
      rw [show f.items table = [] from h] at hmem
      cases hmem
  | succ n ih =>
      have hinner : Relation.TransGen f.NestedIn inner inner := .head' ⟨name, hmem⟩ hback
      obtain ⟨next, hnext, other, hother⟩ := Relation.TransGen.tail'_iff.mp hinner
      exact ih (h _ hmem) hinner next hnext other hother

open Classical in
/-- The tables of the family that are nested in a table. -/
noncomputable def below (f : StaticFamily) (table : String) : Finset String :=
  f.tables.keys.toFinset.filter fun other => Relation.TransGen f.NestedIn other table

theorem mem_below {other : String} :
    other ∈ f.below table ↔ other ∈ f.tables.keys ∧ Relation.TransGen f.NestedIn other table := by
  simp [below]

theorem Acyclic.card_below_lt (h : f.Acyclic) (hinner : inner ∈ f.tables.keys)
    (hnested : f.NestedIn inner outer) : (f.below inner).card < (f.below outer).card := by
  refine Finset.card_lt_card ⟨fun other hother => ?_, fun hsub => ?_⟩
  · obtain ⟨hkey, hreach⟩ := mem_below.mp hother
    exact mem_below.mpr ⟨hkey, hreach.tail hnested⟩
  · have hmem : inner ∈ f.below outer := mem_below.mpr ⟨hinner, .single hnested⟩
    exact h inner (mem_below.mp (hsub hmem)).2

theorem Acyclic.card_below_lt_size (h : f.Acyclic) (htable : table ∈ f.tables.keys) :
    (f.below table).card < f.tables.size := by
  have hsize : f.tables.keys.length = f.tables.size := List.length_map _
  have hsub : f.below table ⊂ f.tables.keys.toFinset := by
    refine ⟨fun other hother => List.mem_toFinset.mpr (mem_below.mp hother).1, fun hsub => ?_⟩
    exact h table (mem_below.mp (hsub (List.mem_toFinset.mpr htable))).2
  rw [← hsize]
  exact Nat.lt_of_lt_of_le (Finset.card_lt_card hsub) (List.toFinset_card_le _)

theorem Acyclic.nestsWithin_of_card_below_lt (h : f.Acyclic)
    (hcard : table ∈ f.tables.keys → (f.below table).card < n) :
    f.NestsWithin n (f.items table) := by
  induction n generalizing table with
  | zero => exact items_of_notMem fun hkey => Nat.not_lt_zero _ (hcard hkey)
  | succ n ih =>
      intro item hitem
      cases item with
      | field name => trivial
      | reference name other => trivial
      | nested name inner =>
          have hnested : f.NestedIn inner table := ⟨name, hitem⟩
          refine ih fun hinner => ?_
          have hless := h.card_below_lt hinner hnested
          have hbound := hcard hnested.mem_keys
          omega

theorem Acyclic.nestsWithin_size (h : f.Acyclic) (table : String) :
    f.NestsWithin f.tables.size (f.items table) :=
  h.nestsWithin_of_card_below_lt h.card_below_lt_size

theorem acyclic_iff :
    f.Acyclic ↔ ∀ table ∈ f.tables.keys, f.NestsWithin f.tables.size (f.items table) := by
  refine ⟨fun h table _ => h.nestsWithin_size table, fun h table hcycle => ?_⟩
  obtain ⟨_, _, hnested⟩ := Relation.TransGen.tail'_iff.mp hcycle
  exact (h table hnested.mem_keys).not_transGen hcycle

instance (f : StaticFamily) : Decidable f.Acyclic := decidable_of_iff _ acyclic_iff.symm

/-- Any list of items is one list more than what is nested in it. -/
theorem Acyclic.nestsWithin (h : f.Acyclic) (items : List StaticItem) :
    f.NestsWithin (f.tables.size + 1) items := by
  intro item _
  cases item with
  | field name => trivial
  | nested name table => exact h.nestsWithin_size table
  | reference name table => trivial

/-- What holds of a list of items as soon as it holds of the tables nested in it holds of all. -/
theorem Acyclic.nested_induction (h : f.Acyclic) {motive : List StaticItem → Prop}
    (step : ∀ items, (∀ name table, .nested name table ∈ items → motive (f.items table)) →
      motive items) (items : List StaticItem) : motive items := by
  have hnests := h.nestsWithin items
  generalize f.tables.size + 1 = n at hnests
  induction n generalizing items with
  | zero =>
      obtain rfl : items = [] := hnests
      exact step [] fun _ _ hmem => absurd hmem List.not_mem_nil
  | succ n ih => exact step items fun name table hmem => ih (f.items table) (hnests _ hmem)

/-! ### Inlined tables -/

/-- The selection has the items of the nested tables in the places of the links to them, and
references to the names of tables instead of the tables. -/
inductive Inlines (f : StaticFamily) (names : String → String) :
    List StaticItem → Selection → Prop
  | nil : Inlines f names [] []
  | field (name : String) {items : List StaticItem} {s : Selection} :
      Inlines f names items s → Inlines f names (.field name :: items) (.field name :: s)
  | nested (name : String) {table : String} {items : List StaticItem} {children s : Selection} :
      Inlines f names (f.items table) children → Inlines f names items s →
        Inlines f names (.nested name table :: items) (.nested name children :: s)
  | reference (name table : String) {items : List StaticItem} {s : Selection} :
      Inlines f names items s →
        Inlines f names (.reference name table :: items) (.reference name (names table) :: s)

/-- The selection of the items with nested tables inlined down to `fuel` levels. -/
def inlinedWithin (f : StaticFamily) (names : String → String) :
    Nat → List StaticItem → Selection
  | 0, items => items.map (element names fun _ => [])
  | fuel + 1, items => items.map (element names fun table =>
      f.inlinedWithin names fuel (f.items table))

def inlined (f : StaticFamily) (names : String → String) (items : List StaticItem) : Selection :=
  f.inlinedWithin names f.tables.size items

variable {names : String → String} {s : Selection}

theorem inlinedWithin_nil (names : String → String) (fuel : Nat) :
    f.inlinedWithin names fuel [] = [] := by
  cases fuel <;> rfl

/-- More fuel than there are levels changes nothing. -/
theorem NestsWithin.inlinedWithin_eq (h : f.NestsWithin (n + 1) items) {fuel : Nat}
    (hfuel : n ≤ fuel) : f.inlinedWithin names fuel items = f.inlinedWithin names n items := by
  induction n generalizing items fuel with
  | zero =>
      cases fuel with
      | zero => rfl
      | succ fuel =>
          refine map_element_congr fun name table hitem => ?_
          rw [show f.items table = [] from h _ hitem, inlinedWithin_nil]
  | succ n ih =>
      obtain ⟨fuel, rfl⟩ : ∃ m, fuel = m + 1 := ⟨fuel - 1, by omega⟩
      exact map_element_congr fun name table hitem =>
        ih (h _ hitem) (Nat.le_of_succ_le_succ hfuel)

theorem Acyclic.inlined_eq_map (h : f.Acyclic) (names : String → String)
    (items : List StaticItem) :
    f.inlined names items = items.map (element names fun table =>
      f.inlined names (f.items table)) := by
  have hnests := h.nestsWithin_size
  unfold inlined
  cases hsize : f.tables.size with
  | zero =>
      refine map_element_congr fun name table _ => ?_
      rw [hsize] at hnests
      rw [show f.items table = [] from hnests table, inlinedWithin_nil]
  | succ size =>
      rw [hsize] at hnests
      exact map_element_congr fun name table _ =>
        ((hnests table).inlinedWithin_eq (Nat.le_succ size)).symm

theorem Acyclic.inlines_inlined (h : f.Acyclic) (items : List StaticItem) :
    f.Inlines names items (f.inlined names items) := by
  induction items using h.nested_induction with
  | step items ihnested =>
      rw [h.inlined_eq_map]
      induction items with
      | nil => exact .nil
      | cons item items ih =>
          have hrest := ih fun name table hmem =>
            ihnested name table (List.mem_cons_of_mem _ hmem)
          cases item with
          | field name => exact .field name hrest
          | reference name table => exact .reference name table hrest
          | nested name table => exact .nested name (ihnested name table List.mem_cons_self) hrest

theorem Acyclic.inlines_iff (h : f.Acyclic) :
    f.Inlines names items s ↔ s = f.inlined names items := by
  refine ⟨fun hinlines => ?_, fun heq => heq ▸ h.inlines_inlined items⟩
  induction hinlines with
  | nil => rw [h.inlined_eq_map, List.map_nil]
  | field name _ ih => rw [ih, h.inlined_eq_map, h.inlined_eq_map, List.map_cons, element]
  | reference name table _ ih =>
      rw [ih, h.inlined_eq_map, h.inlined_eq_map, List.map_cons, element]
  | nested name _ _ ihchildren ih =>
      rw [ih, ihchildren, h.inlined_eq_map names (_ :: _), List.map_cons, element,
        ← h.inlined_eq_map]

end StaticFamily

end SelectionCompiler
