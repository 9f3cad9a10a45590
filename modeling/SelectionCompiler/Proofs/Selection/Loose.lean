import SelectionCompiler.Proofs.Selection.Resolution

/-!
The loose form of selections. Selections without references are written in it and read back.
Main statement: reading goes level by level, from the items of an array to those of the
arrays in objects with one member, and every item gives one element in its place, a
malformed one a field without a name. A change to one item of an array, wherever the array
stands in the value, changes the element in the place of that item and nothing else, and
nothing at all if reading does not come to the array.
-/

namespace SelectionCompiler

/-! ### Places in values -/

namespace Json

/-- The value with `w` for the array item that a path leads to. The path tells the places of
array items and of object members on the way; without an item at its end the value stays. -/
def setItem : Json → List Nat → Json → Json
  | .arr items, [i], w => .arr (items.set i w)
  | .arr items, i :: j :: path, w => .arr (items.modify i fun v => v.setItem (j :: path) w)
  | .obj members, i :: path, w => .obj (members.modify i fun m => (m.1, m.2.setItem path w))
  | v, _, _ => v

/-- What an object with one member holds. -/
def onlyMember? : Json → Option Json
  | .obj [(_, v)] => some v
  | _ => none

/-- The items at a level of the loose form: those of the value itself, or below the item in a
place those of the array that is the item's only member. -/
def level? : Json → List Nat → Option (List Json)
  | .arr items, [] => some items
  | .arr items, j :: above => (items[j]?.bind onlyMember?).bind (·.level? above)
  | _, _ => none

/-- The path to an item at a level of the loose form, whose arrays are first members. -/
def levelPath : List Nat → Nat → List Nat
  | [], i => [i]
  | j :: above, i => j :: 0 :: levelPath above i

/-- Neither a string nor an object with one member that holds an array. -/
def Malformed (v : Json) : Prop :=
  (∀ name, v ≠ .str name) ∧ ∀ name items, v ≠ .obj [(name, .arr items)]

end Json

/-! ### Selections in the loose form -/

namespace Element

mutual

/-- The loose form of an element. For a reference it has no more than the name. -/
def toLoose : Element → Json
  | .field name => .str name
  | .nested name children => .obj [(name, .arr (toLooseItems children))]
  | .reference name _ => .str name

def toLooseItems : List Element → List Json
  | [] => []
  | e :: rest => e.toLoose :: toLooseItems rest

end

/-- What stands for an item of an array; the children are those of the next level. -/
inductive StandsFor : Json → Element → Prop
  | field (name : String) : StandsFor (.str name) (.field name)
  | nested (name : String) (items : List Json) (children : List Element) :
      StandsFor (.obj [(name, .arr items)]) (.nested name children)
  | malformed {item : Json} : item.Malformed → StandsFor item (.field "")

end Element

namespace Selection

def toLoose (s : Selection) : Json := .arr (Element.toLooseItems s)

/-- The selection with `e` for the element at place `i` under the elements at the places
`above`. -/
def setAt : Selection → List Nat → Nat → Element → Selection
  | s, [], i, e => s.set i e
  | s, j :: above, i, e => s.modify j fun
      | .nested name children => .nested name (setAt children above i e)
      | other => other

/-- A selection read from a value in the loose form. -/
structure ReadsLoose (v : Json) (s : Selection) : Prop where
  referenceFree : s.Everywhere Element.IsResolved
  /-- Each item of a level has one element in its place, and there are no other elements. -/
  levels : ∀ above i, Option.Rel Element.StandsFor ((v.level? above).bind (·[i]?))
    (s.descend Element.children above i)
  /-- A new item at a level gives a new element in its place and changes no other. -/
  replaced : ∀ above i w, (v.level? above).isSome = true →
    ofLoose (v.setItem (Json.levelPath above i) w) = s.setAt above i (Element.ofLoose w)
  /-- Items of arrays that are at no level are not read. -/
  apart : ∀ path w, (∀ above i, path = Json.levelPath above i → v.level? above = none) →
    ofLoose (v.setItem path w) = s

end Selection

/-! ### Items -/

namespace Json

theorem cases_loose (v : Json) :
    (∃ name, v = .str name) ∨ (∃ name items, v = .obj [(name, .arr items)]) ∨ v.Malformed := by
  by_cases hstr : ∃ name, v = .str name
  · exact Or.inl hstr
  by_cases hobj : ∃ name items, v = .obj [(name, .arr items)]
  · exact Or.inr (Or.inl hobj)
  · exact Or.inr (Or.inr ⟨fun name h => hstr ⟨name, h⟩, fun name items h => hobj ⟨name, items, h⟩⟩)

theorem malformed_arr (items : List Json) : (arr items).Malformed := ⟨nofun, nofun⟩

theorem level?_of_ne_arr {v : Json} (h : ∀ items, v ≠ .arr items) (above : List Nat) :
    v.level? above = none := by
  cases v with
  | arr items => exact absurd rfl (h items)
  | _ => simp [level?]

theorem Malformed.onlyMember?_ne_arr {v member : Json} (h : v.Malformed)
    (hmember : v.onlyMember? = some member) (items : List Json) : member ≠ .arr items := by
  rintro rfl
  unfold onlyMember? at hmember
  split at hmember
  · cases hmember
    exact h.2 _ items rfl
  · cases hmember

end Json

namespace Element

theorem ofLooseItems_eq_map (items : List Json) : ofLooseItems items = items.map ofLoose := by
  induction items with
  | nil => rfl
  | cons v rest ih => rw [ofLooseItems, ih, List.map_cons]

theorem ofLoose_of_malformed {v : Json} (h : v.Malformed) : ofLoose v = .field "" := by
  unfold ofLoose
  split
  · exact absurd rfl (h.1 _)
  · exact absurd rfl (h.2 _ _)
  · rfl

theorem StandsFor.isResolved {item : Json} {e : Element} (h : StandsFor item e) :
    e.IsResolved := by
  cases h <;> trivial

theorem standsFor_ofLoose (v : Json) : StandsFor v (ofLoose v) := by
  obtain ⟨name, rfl⟩ | ⟨name, items, rfl⟩ | h := v.cases_loose
  · exact .field name
  · exact .nested name items _
  · rw [ofLoose_of_malformed h]
    exact .malformed h

end Element

/-! ### Levels -/

namespace Selection

theorem ofLoose_arr (items : List Json) : ofLoose (.arr items) = items.map Element.ofLoose :=
  Element.ofLooseItems_eq_map items

theorem ofLoose_of_ne_arr {v : Json} (h : ∀ items, v ≠ .arr items) : ofLoose v = [] := by
  cases v with
  | arr items => exact absurd rfl (h items)
  | _ => rfl

/-- What stands under the element for an item is read from the item's only member. -/
theorem descend_children_ofLoose (v : Json) (above : List Nat) (i : Nat) :
    descend Element.children (Element.ofLoose v).children above i =
      v.onlyMember?.bind fun below => descend Element.children (ofLoose below) above i := by
  obtain ⟨name, rfl⟩ | ⟨name, items, rfl⟩ | h := v.cases_loose
  · exact descend_nil Element.children above i
  · rfl
  · rw [Element.ofLoose_of_malformed h]
    refine (descend_nil Element.children above i).trans ?_
    cases hmember : v.onlyMember? with
    | none => rfl
    | some member =>
        rw [Option.bind_some, ofLoose_of_ne_arr (h.onlyMember?_ne_arr hmember), descend_nil]

theorem descend_ofLoose (v : Json) (above : List Nat) (i : Nat) :
    (ofLoose v).descend Element.children above i =
      ((v.level? above).bind (·[i]?)).map Element.ofLoose := by
  induction above generalizing v with
  | nil =>
      cases v with
      | arr items => simp [ofLoose_arr, descend, Json.level?]
      | _ => simp [ofLoose, descend, Json.level?]
  | cons j above ih =>
      cases v with
      | arr items =>
          rw [ofLoose_arr, descend, List.getElem?_map, Json.level?]
          cases items[j]? with
          | none => rfl
          | some item =>
              simp only [Option.map_some, Option.bind_some, descend_children_ofLoose]
              cases item.onlyMember? with
              | none => rfl
              | some below => exact ih below
      | _ => simp [ofLoose, descend, Json.level?]

end Selection

/-! ### Changes to items -/

namespace Json

variable {v w : Json} {path : List Nat}

theorem exists_setItem_arr (items : List Json) (path : List Nat) (w : Json) :
    ∃ others, (arr items).setItem path w = arr others := by
  rcases path with _ | ⟨i, _ | ⟨j, path⟩⟩
  · exact ⟨items, rfl⟩
  · exact ⟨_, rfl⟩
  · exact ⟨_, rfl⟩

theorem exists_setItem_obj (members : List (String × Json)) (path : List Nat) (w : Json) :
    ∃ others, (obj members).setItem path w = obj others := by
  cases path with
  | nil => exact ⟨members, rfl⟩
  | cons i path => exact ⟨_, by rw [setItem]⟩

theorem setItem_of_leaf (harr : ∀ items, v ≠ .arr items) (hobj : ∀ members, v ≠ .obj members) :
    v.setItem path w = v := by
  cases v with
  | arr items => exact absurd rfl (harr items)
  | obj members => exact absurd rfl (hobj members)
  | _ => simp [setItem]

theorem exists_arr_of_setItem_eq {items : List Json} (h : v.setItem path w = .arr items) :
    ∃ others, v = .arr others := by
  by_contra hnone
  have harr : ∀ others, v ≠ .arr others := fun others heq => hnone ⟨others, heq⟩
  by_cases hobj : ∃ members, v = .obj members
  · obtain ⟨members, rfl⟩ := hobj
    obtain ⟨others, heq⟩ := exists_setItem_obj members path w
    rw [heq] at h
    cases h
  · rw [setItem_of_leaf harr fun members heq => hobj ⟨members, heq⟩] at h
    exact harr items h

/-- A malformed item stays malformed when something within it changes. -/
theorem Malformed.setItem (h : v.Malformed) (k : Nat) (path : List Nat) (w : Json) :
    (v.setItem (k :: path) w).Malformed := by
  cases v with
  | arr items =>
      obtain ⟨others, heq⟩ := exists_setItem_arr items (k :: path) w
      rw [heq]
      exact malformed_arr others
  | obj members =>
      rw [Json.setItem]
      refine ⟨nofun, fun name items heq => ?_⟩
      have hmodify := obj.inj heq
      obtain ⟨member, rfl⟩ : ∃ member, members = [member] := by
        rw [← List.length_eq_one_iff, ← List.length_modify, hmodify]
        rfl
      cases k with
      | zero =>
          obtain ⟨rfl, hvalue⟩ := Prod.mk.inj (List.singleton_inj.mp hmodify)
          obtain ⟨others, hothers⟩ := exists_arr_of_setItem_eq hvalue
          exact h.2 member.1 others (by rw [← hothers])
      | succ k => exact h.2 name items (congrArg obj (by simpa using hmodify))
  | _ => simpa [Json.setItem] using h

theorem exists_of_level?_below {above : List Nat}
    (h : (v.onlyMember?.bind (·.level? above)).isSome = true) :
    ∃ name items, v = .obj [(name, .arr items)] ∧ ((arr items).level? above).isSome = true := by
  obtain ⟨name, rfl⟩ | ⟨name, items, rfl⟩ | hmalformed := v.cases_loose
  · cases h
  · exact ⟨name, items, rfl, h⟩
  · cases hmember : v.onlyMember? with
    | none => simp [hmember] at h
    | some member =>
        have hnone := level?_of_ne_arr (hmalformed.onlyMember?_ne_arr hmember) above
        simp [hmember, hnone] at h

end Json

theorem map_modify_of {α β : Type} {f : α → β} {g : α → α} {g' : β → β} {xs : List α} {i : Nat}
    (h : ∀ x, xs[i]? = some x → f (g x) = g' (f x)) :
    (xs.modify i g).map f = (xs.map f).modify i g' := by
  apply List.ext_getElem?
  intro k
  rw [List.getElem?_map, List.getElem?_modify, List.getElem?_modify, List.getElem?_map]
  cases hk : xs[k]? with
  | none => rfl
  | some x =>
      by_cases hik : i = k
      · subst hik
        simp [h x hk]
      · simp [hik]

namespace Selection

theorem ofLoose_setItem_member (name : String) (items : List Json) (path : List Nat) (w : Json) :
    Element.ofLoose ((Json.obj [(name, .arr items)]).setItem (0 :: path) w) =
      .nested name (ofLoose ((Json.arr items).setItem path w)) := by
  obtain ⟨others, heq⟩ := Json.exists_setItem_arr items path w
  rw [heq, Json.setItem]
  change Element.ofLoose (.obj [(name, (Json.arr items).setItem path w)]) = _
  rw [heq]
  rfl

theorem ofLoose_setItem_levelPath {v : Json} {above : List Nat}
    (h : (v.level? above).isSome = true) (i : Nat) (w : Json) :
    ofLoose (v.setItem (Json.levelPath above i) w) =
      (ofLoose v).setAt above i (Element.ofLoose w) := by
  induction above generalizing v with
  | nil =>
      cases v with
      | arr items => rw [Json.levelPath, Json.setItem, ofLoose_arr, List.map_set, ofLoose_arr, setAt]
      | _ => cases h
  | cons j above ih =>
      cases v with
      | arr items =>
          rw [Json.levelPath, Json.setItem, ofLoose_arr, ofLoose_arr, setAt]
          apply map_modify_of
          intro item hitem
          rw [Json.level?, hitem] at h
          obtain ⟨name, below, rfl, hbelow⟩ := Json.exists_of_level?_below h
          rw [ofLoose_setItem_member, ih hbelow]
          rfl
      | _ => cases h

/-- A change within an item that does not change what its only member is read as. -/
theorem ofLoose_setItem_within {item : Json} {k : Nat} {path : List Nat} {w : Json}
    (h : k = 0 → ∀ name below, item = .obj [(name, .arr below)] →
      ofLoose ((Json.arr below).setItem path w) = ofLoose (.arr below)) :
    Element.ofLoose (item.setItem (k :: path) w) = Element.ofLoose item := by
  obtain ⟨name, rfl⟩ | ⟨name, below, rfl⟩ | hmalformed := item.cases_loose
  · rfl
  · cases k with
    | zero =>
        rw [ofLoose_setItem_member, h rfl name below rfl]
        rfl
    | succ k =>
        rw [Json.setItem]
        simp
  · rw [Element.ofLoose_of_malformed hmalformed,
      Element.ofLoose_of_malformed (hmalformed.setItem k path w)]

theorem ofLoose_setItem_arr (w : Json) : ∀ (path : List Nat) (items : List Json),
    (∀ above i, path = Json.levelPath above i → (Json.arr items).level? above = none) →
      ofLoose ((Json.arr items).setItem path w) = ofLoose (.arr items)
  | [], _, _ => rfl
  | [i], _, h => nomatch h [] i rfl
  | i :: k :: path, items, h => by
      have hitems : (items.modify i fun item => item.setItem (k :: path) w).map Element.ofLoose =
          (items.map Element.ofLoose).modify i id := by
        apply map_modify_of
        intro item hitem
        apply ofLoose_setItem_within
        rintro rfl name below rfl
        -- the path goes on into the array that is the item's only member
        apply ofLoose_setItem_arr w path below
        rintro above place rfl
        have hnone := h (i :: above) place rfl
        rwa [Json.level?, hitem] at hnone
      rw [Json.setItem, ofLoose_arr, ofLoose_arr, hitems, List.modify_id]

theorem ofLoose_setItem_apart {v : Json} {path : List Nat}
    (h : ∀ above i, path = Json.levelPath above i → v.level? above = none) (w : Json) :
    ofLoose (v.setItem path w) = ofLoose v := by
  by_cases harr : ∃ items, v = .arr items
  · obtain ⟨items, rfl⟩ := harr
    exact ofLoose_setItem_arr w path items h
  · rw [ofLoose_of_ne_arr fun items heq => harr ⟨items, heq⟩, ofLoose_of_ne_arr]
    exact fun items heq => harr (Json.exists_arr_of_setItem_eq heq)

/-! ### Reading back -/

theorem ofLooseItems_toLooseItems (s : Selection) :
    Element.ofLooseItems (Element.toLooseItems s) = Element.cutAll s := by
  induction s using Selection.induction with
  | nil => rfl
  | field name rest ih => exact congrArg (.field name :: ·) ih
  | nested name children rest ihchildren ih => exact congrArg₂ (.nested name · :: ·) ihchildren ih
  | reference name type rest ih => exact congrArg (.field name :: ·) ih

/-- The loose form keeps a selection exactly if there is no reference in it. -/
theorem ofLoose_toLoose_eq_iff (s : Selection) :
    ofLoose s.toLoose = s ↔ s.Everywhere Element.IsResolved := by
  -- cutting references is resolving to no depth
  have hcut : ofLoose s.toLoose = Arena.empty.resolve 0 s := ofLooseItems_toLooseItems s
  rw [hcut]
  constructor
  · intro h
    rw [← h]
    exact Arena.everywhere_resolve Arena.empty 0 s
  · exact fun h => Arena.resolve_of_everywhere h Arena.empty 0

theorem everywhere_ofLoose (v : Json) : (ofLoose v).Everywhere Element.IsResolved := by
  intro path node hreach
  obtain ⟨above, i, hnode⟩ := hreach.exists_descend
  rw [descend_ofLoose, Option.map_eq_some_iff] at hnode
  obtain ⟨item, _, rfl⟩ := hnode
  exact (Element.standsFor_ofLoose item).isResolved

theorem levels_ofLoose (v : Json) (above : List Nat) (i : Nat) :
    Option.Rel Element.StandsFor ((v.level? above).bind (·[i]?))
      ((ofLoose v).descend Element.children above i) := by
  rw [descend_ofLoose]
  cases (v.level? above).bind (·[i]?) with
  | none => exact .none
  | some item => exact .some (Element.standsFor_ofLoose item)

/-- The loose form is read back exactly for selections without references. Reading it is total:
every value gives a selection, place by place, in which a change to an item that is read changes
the element in its place alone. -/
theorem ofLoose_readsLoose :
    (∀ s : Selection, ofLoose s.toLoose = s ↔ s.Everywhere Element.IsResolved) ∧
      ∀ v : Json, ReadsLoose v (ofLoose v) := by
  refine ⟨ofLoose_toLoose_eq_iff, fun v => ?_⟩
  exact {
    referenceFree := everywhere_ofLoose v
    levels := levels_ofLoose v
    replaced := fun _ i w h => ofLoose_setItem_levelPath h i w
    apart := fun _ w h => ofLoose_setItem_apart h w }

example : ofLoose (.arr [.bool true, .obj [("a", .arr [.str "x", .null])], .obj []]) =
    [.field "", .nested "a" [.field "x", .field ""], .field ""] := rfl

end Selection

end SelectionCompiler
