import SelectionCompiler.Json.Decode
import SelectionCompiler.Proofs.Json.Pretty
import SelectionCompiler.Proofs.OrdMap

/-!
Values that their texts give back: no object has a key twice, and each number is the number of
its own text. Either text of such a value, compact or pretty, is parsed to that value as long as
it is nested no deeper than a text may be.
-/

namespace SelectionCompiler.Json

open Number

variable {v : Json} {items : List Json} {members : List (String × Json)} {n : Nat}

/-- Whether keys are told apart in every object of a value, and numbers in their texts. -/
inductive Faithful : Json → Prop where
  | null : Faithful .null
  | bool (b : Bool) : Faithful (.bool b)
  | num {n : Number} (hn : ofLiteral? n.literal = some n) : Faithful (.num n)
  | str (s : String) : Faithful (.str s)
  | arr {items : List Json} (hitems : ∀ v ∈ items, Faithful v) : Faithful (.arr items)
  | obj {members : List (String × Json)} (hkeys : (members.map Prod.fst).Nodup)
      (hmembers : ∀ m ∈ members, Faithful m.2) : Faithful (.obj members)

/-! ### Numbers -/

theorem itemsExact_of_forall (h : ∀ v ∈ items, v.isExact = true) : itemsExact items = true := by
  induction items with
  | nil => rfl
  | cons v rest ih =>
      rw [itemsExact, h v List.mem_cons_self, ih fun w hw => h w (List.mem_cons_of_mem v hw)]
      rfl

theorem membersExact_of_forall (h : ∀ m ∈ members, m.2.isExact = true) :
    membersExact members = true := by
  induction members with
  | nil => rfl
  | cons m rest ih =>
      rw [membersExact, h m List.mem_cons_self, ih fun w hw => h w (List.mem_cons_of_mem m hw)]
      rfl

theorem Faithful.isExact (h : v.Faithful) : v.isExact = true := by
  induction h with
  | null | bool | str => rfl
  | num hn => simpa [Json.isExact] using hn
  | arr _ ih => exact itemsExact_of_forall ih
  | obj _ _ ih => exact membersExact_of_forall ih

theorem ofLiteral?_literal_int (h : n < Nat.pow 2 64) :
    ofLiteral? (literal (.int n)) = some (.int n) := by
  have hint : (literal (.int n)).int? = some (n : Int) := by
    have hsign : ¬ (n : Int) < 0 := by omega
    simp only [literal, Literal.int?, hsign, decide_false, Int.natAbs_natCast,
      Nat.ofDigitChars_toDigits (by decide : 1 < 10) (by decide : 10 ≤ 10)]
    simpa using h
  rw [ofLiteral?, hint]

theorem Faithful.ofNat (h : n < natBound) : (ofNat n).Faithful :=
  .num (ofLiteral?_literal_int h)

theorem Faithful.ofStrings (xs : List String) : (ofStrings xs).Faithful := by
  refine .arr fun v hv => ?_
  obtain ⟨s, -, rfl⟩ := List.mem_map.mp hv
  exact .str s

theorem Faithful.ofOptionString (s : Option String) : (ofOptionString s).Faithful := by
  cases s with
  | none => exact .null
  | some s => exact .str s

/-! ### Keys -/

theorem mergedItems_eq_map : mergedItems items = items.map merged := by
  induction items with
  | nil => rfl
  | cons v rest ih => rw [mergedItems, ih, List.map_cons]

theorem mergedMembers_eq_map : mergedMembers members = members.map fun m => (m.1, m.2.merged) := by
  induction members with
  | nil => rfl
  | cons m rest ih => rw [mergedMembers, ih, List.map_cons]

theorem foldl_upsert_eq_toList (m : OrdMap Json) :
    members.foldl (fun merged m => upsert m.1 m.2 merged) m.toList =
      (m.insertAll members).toList := by
  induction members generalizing m with
  | nil => rfl
  | cons e rest ih => exact ih (m.insert e.1 e.2)

/-- Members with distinct keys are as they are when merged. -/
theorem mergeKeys_of_nodup (h : (members.map Prod.fst).Nodup) : mergeKeys members = members :=
  (foldl_upsert_eq_toList OrdMap.empty).trans (OrdMap.toList_ofList h)

theorem Faithful.merged_eq (h : v.Faithful) : v.merged = v := by
  induction h with
  | null | bool | num | str => rfl
  | arr _ ih => rw [merged, mergedItems_eq_map, List.map_congr_left ih, List.map_id']
  | @obj members hkeys _ ih =>
      have hvalues : members.map (fun m => (m.1, m.2.merged)) = members.map fun m => m :=
        List.map_congr_left fun m hm => by rw [ih m hm]
      rw [merged, mergedMembers_eq_map, hvalues, List.map_id', mergeKeys_of_nodup hkeys]

/-! ### Nesting -/

theorem nesting_ofNat (n : Nat) : (ofNat n).nesting = 0 := rfl

theorem nesting_arr_le (h : ∀ v ∈ items, v.nesting ≤ n) : (arr items).nesting ≤ n + 1 := by
  have hitems : itemsNesting items ≤ n := by
    induction items with
    | nil => exact Nat.zero_le n
    | cons v rest ih =>
        exact Nat.max_le.mpr ⟨h v List.mem_cons_self,
          ih fun w hw => h w (List.mem_cons_of_mem v hw)⟩
  exact Nat.succ_le_succ hitems

theorem nesting_obj_le (h : ∀ m ∈ members, m.2.nesting ≤ n) : (obj members).nesting ≤ n + 1 := by
  have hmembers : membersNesting members ≤ n := by
    induction members with
    | nil => exact Nat.zero_le n
    | cons m rest ih =>
        exact Nat.max_le.mpr ⟨h m List.mem_cons_self,
          ih fun w hw => h w (List.mem_cons_of_mem m hw)⟩
  exact Nat.succ_le_succ hmembers

theorem nesting_ofStrings_le (xs : List String) : (ofStrings xs).nesting ≤ 1 := by
  refine nesting_arr_le fun v hv => ?_
  obtain ⟨s, -, rfl⟩ := List.mem_map.mp hv
  exact Nat.le_refl 0

/-! ### Texts -/

theorem Faithful.parse?_compact (h : v.Faithful) (hnesting : v.nesting ≤ maxNesting) :
    parse? v.compact = some v := by
  rw [parse?, (spells_compact h.isExact).raw?_eq hnesting, Option.map_some, h.merged_eq]

theorem Faithful.parse?_pretty (h : v.Faithful) (hnesting : v.nesting ≤ maxNesting) :
    parse? v.pretty = some v := by
  rw [parse?, (spells_pretty h.isExact).raw?_eq hnesting, Option.map_some, h.merged_eq]

end SelectionCompiler.Json
