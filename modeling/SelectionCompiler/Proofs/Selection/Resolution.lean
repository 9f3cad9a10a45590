import SelectionCompiler.Proofs.Selection.Arena
import SelectionCompiler.Proofs.Selection.Basic

/-!
What resolving makes of a selection, in any arena. Main statement: the result has no
references; at each of its places stands what the source leads to there, a nested selection
still nested at any depth, a reference opened exactly when its type is registered and the
depth reaches below it; and what is resolved once stays as it is in every arena.
-/

namespace SelectionCompiler

namespace Element

theorem cutAll_eq_map (s : List Element) : cutAll s = s.map cut := by
  induction s with
  | nil => rfl
  | cons e rest ih => rw [cutAll, ih, List.map_cons]

/-- A field, bare or with a selection of its own. -/
def IsResolved : Element → Prop
  | .reference _ _ => False
  | _ => True

end Element

namespace Selection

/-- The element at place `i` under the elements at the places `above`, the topmost first, where
`below` says what stands under an element. -/
def descend (below : Element → Selection) (s : Selection) : List Nat → Nat → Option Element
  | [], i => s[i]?
  | j :: above, i => s[j]?.bind fun e => descend below (below e) above i

theorem descend_nil (below : Element → Selection) (above : List Nat) (i : Nat) :
    descend below [] above i = none := by
  cases above <;> rfl

theorem Reaches.exists_descend {s : Selection} {path : List String} {node : Element}
    (h : s.Reaches path node) : ∃ above i, s.descend Element.children above i = some node := by
  induction h with
  | top hmem =>
      obtain ⟨i, hi⟩ := List.mem_iff_getElem?.mp hmem
      exact ⟨[], i, hi⟩
  | under hmem _ ih =>
      obtain ⟨j, hj⟩ := List.mem_iff_getElem?.mp hmem
      obtain ⟨above, i, hi⟩ := ih
      exact ⟨j :: above, i, by rw [descend, hj, Option.bind_some, hi]⟩

end Selection

namespace Arena

variable {a : Arena} {depth level : Nat} {s : Selection} {e source : Element}

/-! ### One element -/

/-- What comes of an element with `depth` levels left, its own included. -/
def resolveElement (a : Arena) (depth : Nat) : Element → Element
  | .field name => .field name
  | .nested name children => .nested name (a.resolve (depth - 1) children)
  | .reference name type =>
      match a.get? type with
      | some target =>
          if 1 < depth then .nested name (a.resolve (depth - 1) target.selection) else .field name
      | none => .field name

theorem resolve_eq_map (a : Arena) (depth : Nat) (s : Selection) :
    a.resolve depth s = s.map (a.resolveElement depth) := by
  cases depth with
  | zero =>
      rw [resolve, Element.cutAll_eq_map]
      refine List.map_congr_left fun e _ => ?_
      cases e with
      | field name => rfl
      | nested name children => rfl
      | reference name type => cases h : a.get? type <;> simp [Element.cut, resolveElement, h]
  | succ depth =>
      rw [resolve]
      refine List.map_congr_left fun e _ => ?_
      cases e with
      | field name => rfl
      | nested name children => rfl
      | reference name type => cases h : a.get? type <;> simp [resolveElement, h]

/-- The recursion of `resolve`. At depth zero it goes down the nested elements alone, above it
the depth falls with every step. -/
theorem resolve_induction (a : Arena) {motive : Nat → Selection → Prop}
    (step : ∀ depth s,
      (∀ name children, .nested name children ∈ s → motive (depth - 1) children) →
      (∀ name type target, .reference name type ∈ s → a.get? type = some target → 1 < depth →
        motive (depth - 1) target.selection) → motive depth s)
    (depth : Nat) (s : Selection) : motive depth s := by
  induction depth generalizing s with
  | succ depth ih =>
      exact step (depth + 1) s (fun _ children _ => ih children) fun _ _ target _ _ _ =>
        ih target.selection
  | zero =>
      have hbelow : ∀ s : Selection, (∀ name children, .nested name children ∈ s →
          motive 0 children) → motive 0 s := by
        intro s hnested
        exact step 0 s hnested fun _ _ _ _ _ hdepth => absurd hdepth (Nat.not_lt_zero 1)
      refine hbelow s ?_
      induction s using Selection.induction with
      | nil => exact fun _ _ h => absurd h List.not_mem_nil
      | field name rest ih => simpa using ih
      | reference name type rest ih => simpa using ih
      | nested name children rest ihchildren ih =>
          intro other others hmem
          rcases List.mem_cons.mp hmem with heq | hrest
          · cases heq
            exact hbelow children ihchildren
          · exact ih other others hrest

theorem name_resolveElement (a : Arena) (depth : Nat) (e : Element) :
    (a.resolveElement depth e).name = e.name := by
  cases e with
  | field name => rfl
  | nested name children => rfl
  | reference name type =>
      rw [resolveElement]
      split
      · split <;> rfl
      · rfl

theorem names_resolve (a : Arena) (depth : Nat) (s : Selection) :
    (a.resolve depth s).names = s.names := by
  rw [resolve_eq_map, Selection.names, List.map_map]
  exact List.map_congr_left fun e _ => name_resolveElement a depth e

theorem length_resolve (a : Arena) (depth : Nat) (s : Selection) :
    (a.resolve depth s).length = s.length := by
  rw [resolve_eq_map, List.length_map]

/-! ### Levels -/

/-- What stands under an element when its reference is followed. -/
def below (a : Arena) : Element → Selection
  | .field _ => []
  | .nested _ children => children
  | .reference _ type => ((a.get? type).map Submodel.selection).getD []

/-- What resolving to a depth leaves of an element of the source around which `level` nested
selections have come to stand. -/
inductive Shows (a : Arena) (depth level : Nat) : Element → Element → Prop
  | field {name : String} : Shows a depth level (.field name) (.field name)
  | nested {name : String} {children results : List Element} :
      results.length = children.length →
        Shows a depth level (.nested name children) (.nested name results)
  | opened {name type : String} {target : Submodel} {results : List Element} :
      a.get? type = some target → level + 1 < depth →
        results.length = target.selection.length →
          Shows a depth level (.reference name type) (.nested name results)
  | bare {name type : String} :
      ¬(a.contains type = true ∧ level + 1 < depth) →
        Shows a depth level (.reference name type) (.field name)

theorem shows_resolveElement (a : Arena) (depth : Nat) (e : Element) :
    a.Shows depth 0 e (a.resolveElement depth e) := by
  cases e with
  | field name => exact .field
  | nested name children => exact .nested (length_resolve a (depth - 1) children)
  | reference name type =>
      rw [resolveElement]
      split
      · rename_i target hget
        split
        · rename_i hdepth
          exact .opened hget hdepth (length_resolve a (depth - 1) target.selection)
        · rename_i hdepth
          exact .bare fun h => hdepth h.2
      · rename_i hnone
        exact .bare fun hopen => get?_eq_none_iff.mp hnone (contains_iff.mp hopen.1)

/-- A level more on either side. -/
theorem Shows.under (h : a.Shows (depth - 1) level source e) :
    a.Shows depth (level + 1) source e := by
  cases h with
  | field => exact .field
  | nested hlength => exact .nested hlength
  | opened hget hlevel hlength => exact .opened hget (by omega) hlength
  | bare hclosed => exact .bare fun hopen => hclosed ⟨hopen.1, by omega⟩

/-- The children of what comes of an element are what is under it, resolved to a level less. -/
theorem children_resolveElement (a : Arena) (depth : Nat) (e : Element) :
    (a.resolveElement depth e).children = [] ∨
      (a.resolveElement depth e).children = a.resolve (depth - 1) (a.below e) := by
  cases e with
  | field name => exact .inl rfl
  | nested name children => exact .inr rfl
  | reference name type =>
      rw [resolveElement]
      split
      · rename_i target hget
        split
        · exact .inr (by simp [Element.children, below, hget])
        · exact .inl rfl
      · exact .inl rfl

/-- The induction is on the way down and runs for all depths and selections at once. -/
theorem exists_shows {above : List Nat} {i : Nat}
    (h : (a.resolve depth s).descend Element.children above i = some e) :
    ∃ source, s.descend a.below above i = some source ∧ a.Shows depth above.length source e := by
  induction above generalizing depth s with
  | nil =>
      rw [Selection.descend, resolve_eq_map, List.getElem?_map, Option.map_eq_some_iff] at h
      obtain ⟨source, hsource, rfl⟩ := h
      exact ⟨source, hsource, shows_resolveElement a depth source⟩
  | cons j above ih =>
      rw [Selection.descend, resolve_eq_map, List.getElem?_map, Option.bind_eq_some_iff] at h
      obtain ⟨result, hresult, hbelow⟩ := h
      obtain ⟨parent, hparent, rfl⟩ := Option.map_eq_some_iff.mp hresult
      rcases children_resolveElement a depth parent with hnone | hchildren
      · rw [hnone, Selection.descend_nil] at hbelow
        cases hbelow
      · rw [hchildren] at hbelow
        obtain ⟨source, hsource, hshows⟩ := ih hbelow
        exact ⟨source, by simp [Selection.descend, hparent, hsource], hshows.under⟩

/-! ### Results -/

theorem Shows.isResolved (h : a.Shows depth level source e) : e.IsResolved := by
  cases h <;> exact trivial

theorem everywhere_resolve (a : Arena) (depth : Nat) (s : Selection) :
    (a.resolve depth s).Everywhere Element.IsResolved := by
  intro path node hreach
  obtain ⟨above, i, hnode⟩ := hreach.exists_descend
  obtain ⟨source, _, hshows⟩ := exists_shows hnode
  exact hshows.isResolved

theorem resolve_of_everywhere (h : s.Everywhere Element.IsResolved) (a : Arena) (depth : Nat) :
    a.resolve depth s = s := by
  rw [resolve_eq_map]
  induction s using Selection.induction generalizing depth with
  | nil => rfl
  | field name rest ih =>
      obtain ⟨_, _, hrest⟩ := Selection.everywhere_cons.mp h
      rw [List.map_cons, ih hrest, resolveElement]
  | nested name children rest ihchildren ih =>
      obtain ⟨_, hchildren, hrest⟩ := Selection.everywhere_cons.mp h
      rw [List.map_cons, ih hrest, resolveElement, resolve_eq_map, ihchildren hchildren]
  | reference name type rest ih => exact absurd (Selection.everywhere_cons.mp h).1 id

/-- What resolving to a depth makes of a selection. -/
structure Resolved (a : Arena) (depth : Nat) (s result : Selection) : Prop where
  referenceFree : result.Everywhere Element.IsResolved
  names : result.names = s.names
  /-- An element with `above.length` nested selections around it comes from one of the source. -/
  shows : ∀ above i e, result.descend Element.children above i = some e →
    ∃ source, s.descend a.below above i = some source ∧ a.Shows depth above.length source e
  /-- No arena and no depth changes the result again. -/
  settled : ∀ (b : Arena) (other : Nat), b.resolve other result = result

/-- At every depth and in every arena, also where types refer to each other, resolving leaves no
references and keeps the names. What stands at a place of the result is what the source, with its
references opened, has at the same place. -/
theorem resolve_resolved (a : Arena) (depth : Nat) (s : Selection) :
    a.Resolved depth s (a.resolve depth s) where
  referenceFree := everywhere_resolve a depth s
  names := names_resolve a depth s
  shows _ _ _ h := exists_shows h
  settled := resolve_of_everywhere (everywhere_resolve a depth s)

end Arena

end SelectionCompiler
