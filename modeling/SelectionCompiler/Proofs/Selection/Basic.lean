import SelectionCompiler.Selection.Basic

/-!
Selections as trees. Induction on a selection goes through the children of its nested
elements; a node is reached from the top by the names on the way; a property
holds everywhere in a selection when every node has it.
-/

namespace SelectionCompiler

namespace Element

def children : Element → List Element
  | .nested _ children => children
  | _ => []

mutual

/-- How many nested selections lie within one another, this one included. -/
def height : Element → Nat
  | .nested _ children => heightAll children + 1
  | _ => 0

def heightAll : List Element → Nat
  | [] => 0
  | e :: rest => max (height e) (heightAll rest)

end

end Element

namespace Selection

@[elab_as_elim]
theorem induction {motive : Selection → Prop} (nil : motive [])
    (field : ∀ name rest, motive rest → motive (.field name :: rest))
    (nested : ∀ name children rest, motive children → motive rest →
      motive (.nested name children :: rest))
    (reference : ∀ name type rest, motive rest → motive (.reference name type :: rest)) :
    ∀ s, motive s
  | [] => nil
  | .field name :: rest =>
      field name rest (induction nil field nested reference rest)
  | .nested name children :: rest =>
      nested name children rest (induction nil field nested reference children)
        (induction nil field nested reference rest)
  | .reference name type :: rest =>
      reference name type rest (induction nil field nested reference rest)

/-- The names that lead from the top of a selection down to a node. -/
inductive Reaches : Selection → List String → Element → Prop
  | top {s : Selection} {e : Element} : e ∈ s → Reaches s [e.name] e
  | under {s : Selection} {e node : Element} {path : List String} :
      e ∈ s → Reaches e.children path node → Reaches s (e.name :: path) node

theorem not_reaches_nil {path : List String} {node : Element} : ¬Reaches [] path node := by
  intro hreach
  cases hreach with
  | top hmem => cases hmem
  | under hmem _ => cases hmem

/-- Every node of the selection, at any depth, has the property. -/
def Everywhere (p : Element → Prop) (s : Selection) : Prop :=
  ∀ path node, s.Reaches path node → p node

variable {p q : Element → Prop}

theorem Everywhere.mono {s : Selection} (h : s.Everywhere p) (hpq : ∀ e, p e → q e) :
    s.Everywhere q :=
  fun path node hreach => hpq node (h path node hreach)

theorem everywhere_nil : Everywhere p [] :=
  fun _ _ hreach => absurd hreach not_reaches_nil

theorem everywhere_cons {e : Element} {rest : Selection} :
    Everywhere p (e :: rest) ↔ p e ∧ Everywhere p e.children ∧ Everywhere p rest := by
  constructor
  · intro h
    refine ⟨h _ _ (.top List.mem_cons_self), ?_, ?_⟩
    · exact fun path node hreach => h _ _ (.under List.mem_cons_self hreach)
    · intro path node hreach
      cases hreach with
      | top hmem => exact h _ _ (.top (List.mem_cons_of_mem _ hmem))
      | under hmem hrest => exact h _ _ (.under (List.mem_cons_of_mem _ hmem) hrest)
  · rintro ⟨he, hchildren, hrest⟩ path node hreach
    cases hreach with
    | top hmem =>
        rcases List.mem_cons.mp hmem with rfl | hmem
        · exact he
        · exact hrest _ _ (.top hmem)
    | under hmem hbelow =>
        rcases List.mem_cons.mp hmem with rfl | hmem
        · exact hchildren _ _ hbelow
        · exact hrest _ _ (.under hmem hbelow)

mutual

def decidableNode [DecidablePred p] :
    ∀ e : Element, Decidable (p e ∧ Everywhere p e.children)
  | .field name => decidable_of_iff (p (.field name)) (and_iff_left everywhere_nil).symm
  | .nested name children =>
      have _ := decidableEverywhere children
      inferInstanceAs (Decidable (p (.nested name children) ∧ Everywhere p children))
  | .reference name type =>
      decidable_of_iff (p (.reference name type)) (and_iff_left everywhere_nil).symm

instance decidableEverywhere [DecidablePred p] : ∀ s : Selection, Decidable (Everywhere p s)
  | [] => isTrue everywhere_nil
  | e :: rest =>
      have _ := decidableNode e
      have _ := decidableEverywhere rest
      decidable_of_iff ((p e ∧ Everywhere p e.children) ∧ Everywhere p rest)
        (and_assoc.trans everywhere_cons.symm)

end

end Selection

end SelectionCompiler
