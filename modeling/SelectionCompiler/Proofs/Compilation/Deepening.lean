import SelectionCompiler.Proofs.Compilation.Codec
import SelectionCompiler.Proofs.Selection.Resolution

/-!
Resolving to a greater depth. Main statement: it only opens fields that were bare before.
Where no nested elements are given, as in every compiled schema, the shallower result is the
deeper one cut off at its depth, and a result that one more level leaves as it is has settled
for good.
-/

namespace SelectionCompiler

/-- Some bare fields have been opened, everything else stands where it was. -/
inductive Element.RefinesTo : Element → Element → Prop
  | kept (e : Element) : RefinesTo e e
  | opened (name : String) (children : List Element) :
      RefinesTo (.field name) (.nested name children)
  | nested {name : String} {children others : List Element} :
      List.Forall₂ RefinesTo children others →
        RefinesTo (.nested name children) (.nested name others)

namespace Selection

def RefinesTo (s t : Selection) : Prop := List.Forall₂ Element.RefinesTo s t

/-- There are no nested elements in the selection. -/
def Flat (s : Selection) : Prop := Element.heightAll s = 0

instance (s : Selection) : Decidable s.Flat :=
  inferInstanceAs (Decidable (Element.heightAll s = 0))

/-- The selection with a bare field for each nested element that has `level` others around it. -/
def truncate : Nat → Selection → Selection
  | 0, s => s.map fun e =>
      match e with
      | .nested name _ => .field name
      | e => e
  | level + 1, s => s.map fun e =>
      match e with
      | .nested name children => .nested name (truncate level children)
      | e => e

/-- What `truncate` makes of one element. -/
def truncateElement : Nat → Element → Element
  | 0, .nested name _ => .field name
  | level + 1, .nested name children => .nested name (truncate level children)
  | _, e => e

variable {s : Selection} {e : Element} {level : Nat}

theorem truncate_eq_map (level : Nat) (s : Selection) :
    s.truncate level = s.map (truncateElement level) := by
  cases level with
  | zero =>
      refine List.map_congr_left fun e _ => ?_
      cases e <;> rfl
  | succ level =>
      refine List.map_congr_left fun e _ => ?_
      cases e <;> rfl

@[simp] theorem truncateElement_field (level : Nat) (name : String) :
    truncateElement level (.field name) = .field name := by
  cases level <;> rfl

theorem flat_cons {rest : Selection} : Flat (e :: rest) ↔ e.height = 0 ∧ Flat rest :=
  Nat.max_eq_zero_iff

theorem Flat.height_of_mem (h : s.Flat) (he : e ∈ s) : e.height = 0 := by
  induction s with
  | nil => cases he
  | cons first rest ih =>
      obtain ⟨hfirst, hrest⟩ := flat_cons.mp h
      rcases List.mem_cons.mp he with rfl | he
      · exact hfirst
      · exact ih hrest he

/-! ### Heights of cut selections -/

theorem heightAll_truncate_le (level : Nat) (s : Selection) :
    Element.heightAll (s.truncate level) ≤ level := by
  induction level generalizing s with
  | zero =>
      induction s with
      | nil => exact Nat.le_refl 0
      | cons e rest ih =>
          refine Nat.max_le.mpr ⟨?_, ih⟩
          cases e <;> exact Nat.le_refl 0
  | succ level ihlevel =>
      induction s with
      | nil => exact Nat.zero_le _
      | cons e rest ih =>
          refine Nat.max_le.mpr ⟨?_, ih⟩
          cases e with
          | field name => exact Nat.zero_le _
          | nested name children => exact Nat.succ_le_succ (ihlevel children)
          | reference name type => exact Nat.zero_le _

/-- If what remains does not reach down to where the selection was cut, nothing was cut off. -/
theorem truncate_eq_self (h : Element.heightAll (s.truncate level) < level) :
    s.truncate level = s := by
  induction level generalizing s with
  | zero => exact absurd h (Nat.not_lt_zero _)
  | succ level ihlevel =>
      rw [truncate_eq_map] at h ⊢
      induction s with
      | nil => rfl
      | cons e rest ih =>
          obtain ⟨he, hrest⟩ := Nat.max_lt.mp h
          rw [List.map_cons, ih hrest]
          cases e with
          | field name => rfl
          | nested name children =>
              rw [truncateElement, ihlevel (Nat.lt_of_succ_lt_succ he)]
          | reference name type => rfl

end Selection

namespace Arena

variable {a : Arena} {s : Selection} {depth other : Nat}

/-- No registered selection has nested elements. -/
def Flat (a : Arena) : Prop := ∀ m ∈ a.submodels, m.selection.Flat

instance (a : Arena) : Decidable a.Flat :=
  inferInstanceAs (Decidable (∀ m ∈ a.submodels, m.selection.Flat))

theorem Flat.of_get? (h : a.Flat) {type : String} {target : Submodel}
    (hget : a.get? type = some target) : target.selection.Flat :=
  h target (OrdMap.mem_values_iff.mpr ⟨type, hget⟩)

theorem resolve_refinesTo (a : Arena) (s : Selection) (h : depth ≤ other) :
    (a.resolve depth s).RefinesTo (a.resolve other s) := by
  induction depth, s using a.resolve_induction generalizing other with
  | step depth s ihnested ihreference =>
      rw [resolve_eq_map, resolve_eq_map, Selection.RefinesTo, List.forall₂_map_left_iff,
        List.forall₂_map_right_iff, List.forall₂_same]
      intro e he
      cases e with
      | field name => exact .kept _
      | nested name children => exact .nested (ihnested name children he (by omega))
      | reference name type =>
          cases hget : a.get? type with
          | none =>
              simp only [resolveElement, hget]
              exact .kept _
          | some target =>
              simp only [resolveElement, hget]
              by_cases hdepth : 1 < depth
              · rw [if_pos hdepth, if_pos (by omega)]
                exact .nested (ihreference name type target he hget hdepth (by omega))
              · rw [if_neg hdepth]
                split
                · exact .opened name _
                · exact .kept _

/-! ### Without nested elements -/

theorem resolve_eq_truncate (ha : a.Flat) (hs : s.Flat) (h : depth ≤ other) :
    a.resolve depth s = (a.resolve other s).truncate (max depth 1 - 1) := by
  induction depth, s using a.resolve_induction generalizing other with
  | step depth s _ ih =>
      rw [resolve_eq_map, resolve_eq_map, Selection.truncate_eq_map, List.map_map]
      refine List.map_congr_left fun e he => ?_
      have hheight := hs.height_of_mem he
      rw [Function.comp_apply]
      cases e with
      | field name => simp [resolveElement]
      | nested name children => exact absurd hheight (Nat.succ_ne_zero _)
      | reference name type =>
          cases hget : a.get? type with
          | none => simp [resolveElement, hget]
          | some target =>
              simp only [resolveElement, hget]
              by_cases hdepth : 1 < depth
              · -- opened at both depths, and cut one level further down
                have hlevel : max depth 1 - 1 = max (depth - 1) 1 - 1 + 1 := by omega
                have htarget := ih name type target he hget hdepth (ha.of_get? hget)
                  (Nat.sub_le_sub_right h 1)
                rw [if_pos hdepth, if_pos (by omega), hlevel, Selection.truncateElement, htarget]
              · -- cut off here if the greater depth opens it
                have hlevel : max depth 1 - 1 = 0 := by omega
                rw [if_neg hdepth, hlevel]
                split <;> rfl

theorem resolve_eq_of_settled (ha : a.Flat) (hs : s.Flat) (hdepth : 1 ≤ depth)
    (hsettled : a.resolve depth s = a.resolve (depth + 1) s) (h : depth ≤ other) :
    a.resolve other s = a.resolve depth s := by
  rcases Nat.eq_or_lt_of_le h with rfl | hlt
  · rfl
  · have hcut : a.resolve (depth + 1) s = (a.resolve other s).truncate depth := by
      rw [resolve_eq_truncate ha hs hlt, Nat.succ_eq_add_one, Nat.max_eq_left (by omega),
        Nat.add_sub_cancel]
    have hself := resolve_eq_truncate ha hs (Nat.le_refl depth)
    have hheight : Element.heightAll (a.resolve depth s) < depth := by
      rw [hself]
      exact Nat.lt_of_le_of_lt (Selection.heightAll_truncate_le _ _) (by omega)
    rw [hsettled, hcut] at hheight ⊢
    rw [Selection.truncate_eq_self hheight]

end Arena

/-! ### Compiled schemas -/

/-- No selection of the compilation has nested elements. -/
structure Compilation.Flat (c : Compilation) : Prop where
  submodels : c.submodels.Flat
  roots : ∀ r ∈ c.roots.values, r.selection.Flat

theorem Schema.flat_compile (schema : Schema) (config : Config) :
    (schema.compile config).Flat where
  submodels := by
    intro m hm
    obtain ⟨name, hget⟩ := OrdMap.mem_values_iff.mp hm
    obtain ⟨-, rfl⟩ := of_mem_submodels_compile (OrdMap.get?_eq_some_iff.mp hget)
    exact schema.typeGraph.heightAll_referring name
  roots := by
    intro r hr
    obtain ⟨_, _, reference, _, rfl⟩ := mem_roots_compile hr
    exact schema.typeGraph.heightAll_referring reference.target

namespace Arena

/-- A greater depth opens bare fields and changes nothing else. Where no selection has nested
elements, a smaller depth is a cut through what a greater one gives, and what stays the same
under one more level stays the same under any number of them. Compiled schemas have no nested
elements. -/
theorem resolve_deepened :
    (∀ (a : Arena) (s : Selection) (depth other : Nat), depth ≤ other →
      (a.resolve depth s).RefinesTo (a.resolve other s)) ∧
    (∀ (a : Arena) (s : Selection), a.Flat → s.Flat →
      (∀ depth other, depth ≤ other →
        a.resolve depth s = (a.resolve other s).truncate (max depth 1 - 1)) ∧
      ∀ depth, 1 ≤ depth → a.resolve depth s = a.resolve (depth + 1) s →
        ∀ other, depth ≤ other → a.resolve other s = a.resolve depth s) ∧
    ∀ (schema : Schema) (config : Config), (schema.compile config).Flat := by
  refine ⟨fun a s _ _ h => resolve_refinesTo a s h, fun a s ha hs => ⟨?_, ?_⟩,
    Schema.flat_compile⟩
  · intro depth other h
    exact resolve_eq_truncate ha hs h
  · intro depth hdepth hsettled other h
    exact resolve_eq_of_settled ha hs hdepth hsettled h

/-- Users and their posts refer to each other, and posts to tags, which refer to nothing. -/
theorem resolve_deepened_cyclic :
    let a : Arena := ⟨.ofList [
      ("User", ⟨"User", 1, [.field "name", .reference "posts" "Post"]⟩),
      ("Post", ⟨"Post", 1, [.reference "author" "User", .reference "tag" "Tag"]⟩),
      ("Tag", ⟨"Tag", 1, [.field "label"]⟩)]⟩
    let user : Selection := [.reference "user" "User", .reference "ghost" "Missing"]
    let tag : Selection := [.reference "tag" "Tag"]
    a.Flat ∧ user.Flat ∧ tag.Flat ∧ a.resolve 2 user ≠ a.resolve 4 user ∧
      (a.resolve 2 user).RefinesTo (a.resolve 4 user) ∧
      a.resolve 2 user = (a.resolve 4 user).truncate 1 ∧
      a.resolve 2 tag = a.resolve 3 tag ∧ a.resolve 9 tag = a.resolve 2 tag := by
  intro a user tag
  have ha : a.Flat := by decide
  have huser : user.Flat := by decide
  have htag : tag.Flat := by decide
  have hsettled : a.resolve 2 tag = a.resolve 3 tag := by decide
  exact ⟨ha, huser, htag, by decide, resolve_deepened.1 a user 2 4 (by decide),
    (resolve_deepened.2.1 a user ha huser).1 2 4 (by decide), hsettled,
    (resolve_deepened.2.1 a tag ha htag).2 2 (by decide) hsettled 9 (by decide)⟩

end Arena

end SelectionCompiler
