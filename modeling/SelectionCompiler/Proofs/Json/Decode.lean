import SelectionCompiler.Json.Decode
import Mathlib.Tactic.Common

/-!
Reading typed values off the values they were written as: members that stand in an object as
written, lists whose items are read back, and natural numbers below the bound.
-/

namespace SelectionCompiler.Json

variable {α β : Type} {encode : α → Json} {decode : Json → Option α} {v w : Json} {key : String}
  {members : List (String × Json)} {xs : List α}

/-! ### Members -/

@[simp] theorem member?_cons (name : String) :
    (obj ((name, w) :: members)).member? key =
      if key = name then some w else (obj members).member? key := by
  rw [member?, List.lookup_cons]
  by_cases h : key = name
  · simp [h]
  · rw [beq_false_of_ne h, if_neg h]
    rfl

@[simp] theorem member?_nil : (obj []).member? key = none := rfl

theorem required_of_member? (h : v.member? key = some w) : v.required key decode = decode w := by
  rw [required, h, Option.bind_some]

theorem defaulted_of_member? {default : α} (h : v.member? key = some w) :
    v.defaulted key default decode = decode w := by
  rw [defaulted, h]

theorem defaulted_of_absent {default : α} (h : v.member? key = none) :
    v.defaulted key default decode = some default := by
  rw [defaulted, h]

/-- A value or, where there is none, null is read back unless a value is written as null. -/
theorem optional_of_member? {x : Option α} (h : v.member? key = some ((x.map encode).getD .null))
    (hx : ∀ a ∈ x, decode (encode a) = some a) (hnull : ∀ a, encode a ≠ .null) :
    v.optional key decode = some x := by
  rw [optional, h]
  cases x with
  | none => rfl
  | some a =>
      rw [Option.map_some, Option.getD_some]
      split
      · contradiction
      · rename_i heq
        exact absurd (Option.some.inj heq) (hnull a)
      · rename_i heq
        rw [← Option.some.inj heq, hx a rfl, Option.map_some]

theorem optional_ofOptionString {s : Option String} (h : v.member? key = some (ofOptionString s)) :
    v.optional key toString? = some s := by
  have hvalue : ofOptionString s = (s.map str).getD .null := by cases s <;> rfl
  exact optional_of_member? (hvalue ▸ h) (fun _ _ => rfl) fun _ => by simp

/-! ### Lists and numbers -/

theorem mapM_map_eq_some {f : α → β} {g : β → Option α} (h : ∀ x ∈ xs, g (f x) = some x) :
    (xs.map f).mapM g = some xs := by
  induction xs with
  | nil => rfl
  | cons x rest ih =>
      rw [List.map_cons, List.mapM_cons, h x List.mem_cons_self,
        ih fun y hy => h y (List.mem_cons_of_mem x hy)]
      rfl

theorem toList?_map (h : ∀ x ∈ xs, decode (encode x) = some x) :
    toList? decode (.arr (xs.map encode)) = some xs :=
  mapM_map_eq_some h

theorem toList?_ofStrings (names : List String) :
    toList? toString? (ofStrings names) = some names :=
  toList?_map fun _ _ => rfl

theorem toNat?_ofNat {n : Nat} (h : n < natBound) : (ofNat n).toNat? = some n := by
  simp [ofNat, toNat?, h]

end SelectionCompiler.Json
