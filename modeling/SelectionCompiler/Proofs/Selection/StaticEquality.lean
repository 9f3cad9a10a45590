import SelectionCompiler.Proofs.Selection.StaticResolution

/-!
Equality of lists of static items. In a family without cycles of nested links two lists are the
same exactly if they are one selection when nested tables are inlined and references kept as
names of tables. Main statement: the comparison ends, it is an equivalence, and lists that are
the same resolve to the same selection at every depth.
-/

namespace SelectionCompiler.StaticFamily

open StaticItem

variable {f : StaticFamily} {xs ys : List StaticItem} {n : Nat}

/-- To compare the outer pair of lists the inner one has to be compared first. -/
def Compares (f : StaticFamily) (inner outer : List StaticItem × List StaticItem) : Prop :=
  ∃ m n table other, (.nested m table, .nested n other) ∈ outer.1.zip outer.2 ∧
    inner = (f.items table, f.items other)

theorem Acyclic.acc_compares (h : f.Acyclic) (xs ys : List StaticItem) :
    Acc f.Compares (xs, ys) := by
  induction xs using h.nested_induction generalizing ys with
  | step xs ih =>
      refine .intro _ ?_
      rintro _ ⟨m, _, table, other, hmem, rfl⟩
      exact ih m table (List.of_mem_zip hmem).1 (f.items other)

/-! ### Lists place by place -/

section

variable {α β γ : Type} {related : α → α → Bool} {g : α → β}

theorem pairwise_iff_map_eq {xs ys : List α}
    (h : ∀ x ∈ xs, ∀ y ∈ ys, related x y = true ↔ g x = g y) :
    pairwise related xs ys = true ↔ xs.map g = ys.map g := by
  induction xs generalizing ys with
  | nil => cases ys <;> simp [pairwise]
  | cons x xs ih =>
      cases ys with
      | nil => simp [pairwise]
      | cons y ys =>
          have hrest := ih fun x hx y hy =>
            h x (List.mem_cons_of_mem _ hx) y (List.mem_cons_of_mem _ hy)
          rw [pairwise, Bool.and_eq_true, h x List.mem_cons_self y List.mem_cons_self, hrest,
            List.map_cons, List.map_cons, List.cons_eq_cons]

theorem map_eq_of_map_eq {k : α → γ} (h : ∀ x y, g x = g y → k x = k y) {xs ys : List α}
    (hmap : xs.map g = ys.map g) : xs.map k = ys.map k := by
  induction xs generalizing ys with
  | nil => rw [List.map_eq_nil_iff.mp hmap.symm]
  | cons x xs ih =>
      cases ys with
      | nil => cases hmap
      | cons y ys =>
          obtain ⟨hfirst, hrest⟩ := List.cons_eq_cons.mp hmap
          rw [List.map_cons, List.map_cons, h x y hfirst, ih hrest]

end

/-! ### Equality of inlined tables -/

/-- Two items are the same if their nested tables are and all else agrees. -/
theorem sameItem_iff {sameItems : List StaticItem → List StaticItem → Bool} {x y : StaticItem}
    (h : ∀ m table n other, x = .nested m table → y = .nested n other →
      (sameItems (f.items table) (f.items other) = true ↔
        f.inlined id (f.items table) = f.inlined id (f.items other))) :
    f.sameItem sameItems x y = true ↔
      element id (fun table => f.inlined id (f.items table)) x =
        element id (fun table => f.inlined id (f.items table)) y := by
  cases x with
  | field m => cases y <;> simp [sameItem, element]
  | reference m table => cases y <;> simp [sameItem, element]
  | nested m table =>
      cases y with
      | field n => simp [sameItem, element]
      | reference n other => simp [sameItem, element]
      | nested n other => simp [sameItem, element, h m table n other rfl rfl]

theorem Acyclic.sameWithin_iff (h : f.Acyclic) (hxs : f.NestsWithin n xs)
    (hys : f.NestsWithin n ys) :
    f.sameWithin n xs ys = true ↔ f.inlined id xs = f.inlined id ys := by
  induction n generalizing xs ys with
  | zero =>
      rw [show xs = [] from hxs, show ys = [] from hys]
      simp [sameWithin]
  | succ n ih =>
      rw [sameWithin, h.inlined_eq_map id xs, h.inlined_eq_map id ys]
      refine pairwise_iff_map_eq fun x hx y hy => sameItem_iff ?_
      rintro m table k other rfl rfl
      exact ih (hxs _ hx) (hys _ hy)

theorem Acyclic.same_iff (h : f.Acyclic) :
    f.same xs ys = true ↔ f.inlined id xs = f.inlined id ys :=
  h.sameWithin_iff (h.nestsWithin xs) (h.nestsWithin ys)

theorem Acyclic.same_eq_pairwise (h : f.Acyclic) (xs ys : List StaticItem) :
    f.same xs ys = pairwise (f.sameItem f.same) xs ys := by
  have hmap : pairwise (f.sameItem f.same) xs ys = true ↔ _ :=
    pairwise_iff_map_eq fun _ _ _ _ => sameItem_iff fun _ _ _ _ _ _ => h.same_iff
  rw [Bool.eq_iff_iff, hmap, h.same_iff, h.inlined_eq_map id xs, h.inlined_eq_map id ys]

/-- What resolving makes of items depends on nothing but what they are when inlined. -/
theorem Acyclic.resolve_congr (h : f.Acyclic) (heq : f.inlined id xs = f.inlined id ys)
    (depth : Nat) : f.resolve depth xs = f.resolve depth ys := by
  induction depth generalizing xs ys with
  | zero => rw [f.resolve_zero id, f.resolve_zero id, heq]
  | succ depth ih =>
      rw [h.inlined_eq_map id xs, h.inlined_eq_map id ys] at heq
      rw [h.resolve_eq_map, h.resolve_eq_map]
      refine map_eq_of_map_eq (fun x y hxy => ?_) heq
      cases x with
      | field m =>
          cases y with
          | field n => exact hxy
          | nested n other => cases hxy
          | reference n other => cases hxy
      | nested m table =>
          cases y with
          | field n => cases hxy
          | reference n other => cases hxy
          | nested n other =>
              obtain ⟨rfl, hchildren⟩ := Element.nested.inj hxy
              exact congrArg (Element.nested m) (ih hchildren)
      | reference m table =>
          cases y with
          | field n => cases hxy
          | nested n other => cases hxy
          | reference n other =>
              obtain ⟨rfl, htable⟩ := Element.reference.inj hxy
              exact congrArg (f.resolveItem (depth + 1) ∘ StaticItem.reference m) htable

/-- What equality of items promises: the comparison ends, with the verdict that its equation
asks for, and it is an equivalence that resolving respects. -/
structure Congruent (f : StaticFamily) : Prop where
  ends : WellFounded f.Compares
  unfolds : ∀ xs ys, f.same xs ys = pairwise (f.sameItem f.same) xs ys
  refl : ∀ xs, f.same xs xs = true
  symm : ∀ xs ys, f.same xs ys = true → f.same ys xs = true
  trans : ∀ xs ys zs, f.same xs ys = true → f.same ys zs = true → f.same xs zs = true
  resolve : ∀ xs ys, f.same xs ys = true → ∀ depth, f.resolve depth xs = f.resolve depth ys

/-- Without cycles of nested links the comparison is a congruence: it ends on every two lists,
and resolving cannot tell apart what it calls the same. Cycles of references are allowed, since
the comparison does not follow them. -/
theorem same_congruent (f : StaticFamily) (h : f.Acyclic) : f.Congruent where
  ends := ⟨fun pair => h.acc_compares pair.1 pair.2⟩
  unfolds := h.same_eq_pairwise
  refl _ := h.same_iff.mpr rfl
  symm _ _ hsame := h.same_iff.mpr (h.same_iff.mp hsame).symm
  trans _ _ _ hfirst hsecond :=
    h.same_iff.mpr ((h.same_iff.mp hfirst).trans (h.same_iff.mp hsecond))
  resolve _ _ hsame depth := h.resolve_congr (h.same_iff.mp hsame) depth

/-- Two tables are nested in the same way and hold the same, one of them with a reference to
the other; the third refers to a table of the same contents, which is another one. -/
def twins : StaticFamily := ⟨.ofList [
  ("First", [.field "id", .nested "page" "Page", .reference "twin" "First"]),
  ("Second", [.field "id", .nested "page" "Sheet", .reference "twin" "First"]),
  ("Third", [.field "id", .nested "page" "Sheet", .reference "twin" "Second"]),
  ("Page", [.field "size", .reference "back" "Second"]),
  ("Sheet", [.field "size", .reference "back" "Second"])]⟩

theorem same_congruent_twins :
    twins.Acyclic ∧ twins.Congruent ∧
      twins.same (twins.items "First") (twins.items "Second") = true ∧
      twins.resolve 5 (twins.items "First") = twins.resolve 5 (twins.items "Second") ∧
      twins.same (twins.items "Second") (twins.items "Third") = false := by
  have hacyclic : twins.Acyclic := by decide
  have hcongruent := same_congruent twins hacyclic
  have hsame : twins.same (twins.items "First") (twins.items "Second") = true := by decide
  exact ⟨hacyclic, hcongruent, hsame, hcongruent.resolve _ _ hsame 5, by decide⟩

end SelectionCompiler.StaticFamily
