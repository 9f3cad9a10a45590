import SelectionCompiler.Text.Reader
import Mathlib.Tactic.Common

/-!
What readers take. A reader takes a list of tokens for a value when it reads that value off
them whatever comes after; readers one after the other take their tokens one after the
other, and items up to a closing token are taken together when each of them is and none
begins like the close.
-/

namespace SelectionCompiler

namespace Reader

variable {τ α β : Type}

/-- The reader reads the value off these tokens and leaves all that follows. -/
def Takes (r : Reader τ α) (ts : List τ) (x : α) : Prop := ∀ rest, r (ts ++ rest) = some (x, rest)

/-- The same for what follows beginning with such a token, or being empty. -/
def TakesBefore (p : τ → Prop) (r : Reader τ α) (ts : List τ) (x : α) : Prop :=
  ∀ rest, (∀ t ∈ rest.head?, p t) → r (ts ++ rest) = some (x, rest)

variable {r : Reader τ α} {f : α → Reader τ β} {t : τ} {ts us : List τ} {x : α} {y : β}

theorem bind_apply (r : Reader τ α) (f : α → Reader τ β) (ts : List τ) :
    (r >>= f) ts = (r ts).bind fun s => f s.1 s.2 := rfl

theorem map_apply (g : α → β) (r : Reader τ α) (ts : List τ) :
    (do return g (← r) : Reader τ β) ts = (r ts).map fun s => (g s.1, s.2) := by
  rw [bind_apply]
  cases r ts <;> rfl

theorem Takes.before {p : τ → Prop} (h : Takes r ts x) : TakesBefore p r ts x :=
  fun rest _ => h rest

theorem Takes.bind (hr : Takes r ts x) (hf : Takes (f x) us y) : Takes (r >>= f) (ts ++ us) y := by
  intro rest
  rw [List.append_assoc, bind_apply, hr (us ++ rest)]
  exact hf rest

theorem Takes.map {g : α → β} (h : Takes r ts x) : Takes (do return g (← r)) ts (g x) := by
  intro rest
  rw [map_apply, h rest, Option.map_some]

theorem Takes.bind_before {p : τ → Prop} (hr : Takes r ts x) (hf : TakesBefore p (f x) us y) :
    TakesBefore p (r >>= f) (ts ++ us) y := by
  intro rest hrest
  rw [List.append_assoc, bind_apply, hr (us ++ rest)]
  exact hf rest hrest

/-- A reader that depends on what follows it, before one that begins so. -/
theorem TakesBefore.bind {p : τ → Prop} (hr : TakesBefore p r ts x) (ht : p t)
    (hf : Takes (f x) (t :: us) y) : Takes (r >>= f) (ts ++ t :: us) y := by
  intro rest
  rw [List.append_assoc, bind_apply, hr (t :: us ++ rest) (by simpa using ht)]
  exact hf rest

theorem TakesBefore.map {p : τ → Prop} {g : α → β} (h : TakesBefore p r ts x) :
    TakesBefore p (do return g (← r)) ts (g x) := by
  intro rest hrest
  rw [map_apply, h rest hrest, Option.map_some]

theorem takes_next (t : τ) : Takes next [t] t := fun _ => rfl

theorem length_le_length_flatMap {write : α → List τ} {xs : List α} (h : ∀ x ∈ xs, write x ≠ []) :
    xs.length ≤ (xs.flatMap write).length := by
  induction xs with
  | nil => exact Nat.le_refl 0
  | cons x xs ih =>
      have hx := List.length_pos_iff.mpr (h x List.mem_cons_self)
      have hrest := ih fun y hy => h y (List.mem_cons_of_mem x hy)
      rw [List.flatMap_cons, List.length_append, List.length_cons]
      omega

section

variable [DecidableEq τ] {close : τ} {item : Reader τ α} {fuel : Nat}

theorem accept_apply (t : τ) (ts : List τ) :
    accept t ts = if ts.head? = some t then some (true, ts.tail) else some (false, ts) := by
  change (if ts.head? = some t then (do let _ ← next; return true : Reader τ Bool)
    else return false) ts = _
  split
  · rename_i hhead
    match ts, hhead with
    | _ :: _, _ => rfl
  · rfl

theorem takes_accept (t : τ) : Takes (accept t) [t] true :=
  fun rest => by rw [accept_apply, if_pos (by rfl)]; rfl

theorem expect_apply (t : τ) (ts : List τ) :
    expect t ts = if ts.head? = some t then some ((), ts.tail) else none := by
  change (accept t ts).bind (fun s => (if s.1 then pure () else refuse : Reader τ Unit) s.2) = _
  rw [accept_apply]
  split <;> rfl

theorem takes_expect (t : τ) : Takes (expect t) [t] () :=
  fun rest => by rw [expect_apply, if_pos (by rfl)]; rfl

/-! ### Items up to a closing token -/

theorem itemsUntil_close (rest : List τ) :
    itemsUntil close item (fuel + 1) (close :: rest) = some ([], rest) := by
  change (accept close (close :: rest)).bind _ = _
  rw [accept_apply, if_pos (by rfl)]
  rfl

theorem itemsUntil_item (h : ts.head? ≠ some close) :
    itemsUntil close item (fuel + 1) ts = (item ts).bind fun s =>
      (itemsUntil close item fuel s.2).map fun xs => (s.1 :: xs.1, xs.2) := by
  change (accept close ts).bind _ = _
  rw [accept_apply, if_neg h]
  change (item ts).bind _ = _
  exact congrArg _ (funext fun s => map_apply (s.1 :: ·) (itemsUntil close item fuel) s.2)

theorem untilClose_apply (ts : List τ) :
    untilClose close item ts = itemsUntil close item (ts.length + 1) ts := rfl

theorem someUntilClose_apply (ts : List τ) :
    someUntilClose close item ts = (item ts).bind fun s =>
      (untilClose close item s.2).map fun xs => (s.1 :: xs.1, xs.2) := by
  change (item ts).bind _ = _
  exact congrArg _ (funext fun s => map_apply (s.1 :: ·) (untilClose close item) s.2)

/-! ### Refusals -/

theorem itemsUntil_refused (hhead : ts.head? ≠ some close) (h : item ts = none) :
    itemsUntil close item fuel ts = none := by
  cases fuel with
  | zero => rfl
  | succ fuel => rw [itemsUntil_item hhead, h, Option.bind_none]

theorem itemsUntil_refused_later {rest : List τ} (hhead : ts.head? ≠ some close)
    (h : item ts = some (x, rest)) (hrest : ∀ fuel, itemsUntil close item fuel rest = none) :
    itemsUntil close item fuel ts = none := by
  cases fuel with
  | zero => rfl
  | succ fuel => rw [itemsUntil_item hhead, h, Option.bind_some, hrest, Option.map_none]

theorem someUntilClose_refused (hhead : ts.head? ≠ some close)
    (h : ∀ fuel, itemsUntil close item fuel ts = none) : someUntilClose close item ts = none := by
  rw [someUntilClose_apply]
  cases hitem : item ts with
  | none => rfl
  | some s =>
      have hmore := h (s.2.length + 1 + 1)
      rw [itemsUntil_item hhead, hitem] at hmore
      exact hmore

/-! ### Lists of items -/

section

variable {p : τ → Prop} {write : α → List τ} {xs : List α}

theorem itemsUntil_append (hitem : ∀ x ∈ xs, TakesBefore p item (write x) x)
    (hhead : ∀ x ∈ xs, ∃ t us, write x = t :: us ∧ t ≠ close ∧ p t) (hfuel : xs.length ≤ fuel)
    {rest : List τ} (hrest : ∀ t ∈ rest.head?, p t) :
    itemsUntil close item fuel (xs.flatMap write ++ rest) =
      (itemsUntil close item (fuel - xs.length) rest).map fun ys => (xs ++ ys.1, ys.2) := by
  induction xs generalizing fuel with
  | nil => simp
  | cons x xs ih =>
      obtain ⟨fuel, rfl⟩ : ∃ n, fuel = n + 1 := ⟨fuel - 1, by simp at hfuel; omega⟩
      obtain ⟨t, us, hwrite, hne, _⟩ := hhead x List.mem_cons_self
      have hitems := List.forall_mem_cons.mp hitem
      have hheads := List.forall_mem_cons.mp hhead
      have hnext : ∀ t ∈ (xs.flatMap write ++ rest).head?, p t := by
        cases xs with
        | nil => exact hrest
        | cons y ys =>
            obtain ⟨u, vs, hy, _, hu⟩ := hhead y (by simp)
            simpa [hy] using hu
      have htail := ih hitems.2 hheads.2 (Nat.le_of_succ_le_succ hfuel)
      rw [List.flatMap_cons, List.append_assoc, itemsUntil_item (by simp [hwrite, hne]),
        hitems.1 _ hnext, Option.bind_some, htail, Option.map_map, List.length_cons,
        Nat.add_sub_add_right]
      rfl

/-- Items that depend on what follows them are taken when the items and the closing token
begin with what they can be followed by. -/
theorem takes_untilClose_before (hitem : ∀ x ∈ xs, TakesBefore p item (write x) x)
    (hhead : ∀ x ∈ xs, ∃ t us, write x = t :: us ∧ t ≠ close ∧ p t) (hclose : p close) :
    Takes (untilClose close item) (xs.flatMap write ++ [close]) xs := by
  intro rest
  have hlength : xs.length ≤ (xs.flatMap write).length := by
    refine length_le_length_flatMap fun x hx => ?_
    obtain ⟨t, us, hwrite, _⟩ := hhead x hx
    simp [hwrite]
  -- one call is left for the closing token
  obtain ⟨fuel, hfuel⟩ : ∃ fuel,
      (xs.flatMap write ++ [close] ++ rest).length + 1 = xs.length + (fuel + 1) := by
    refine ⟨(xs.flatMap write ++ [close] ++ rest).length - xs.length, ?_⟩
    rw [List.append_assoc, List.length_append]
    omega
  rw [untilClose_apply, hfuel, List.append_assoc, List.singleton_append,
    itemsUntil_append hitem hhead (Nat.le_add_right _ _) (by simpa using hclose),
    Nat.add_sub_cancel_left, itemsUntil_close, Option.map_some, List.append_nil]

theorem takes_someUntilClose_before {x : α} (hitem : ∀ y ∈ x :: xs, TakesBefore p item (write y) y)
    (hhead : ∀ y ∈ xs, ∃ t us, write y = t :: us ∧ t ≠ close ∧ p t) (hclose : p close) :
    Takes (someUntilClose close item) ((x :: xs).flatMap write ++ [close]) (x :: xs) := by
  intro rest
  have hitems := List.forall_mem_cons.mp hitem
  have hnext : ∀ t ∈ (xs.flatMap write ++ [close] ++ rest).head?, p t := by
    cases xs with
    | nil => simpa using hclose
    | cons y ys =>
        obtain ⟨t, us, hy, _, ht⟩ := hhead y List.mem_cons_self
        simpa [hy] using ht
  have hxs := takes_untilClose_before hitems.2 hhead hclose rest
  rw [List.flatMap_cons, List.append_assoc, List.append_assoc, someUntilClose_apply,
    ← List.append_assoc (xs.flatMap write), hitems.1 _ hnext, Option.bind_some, hxs,
    Option.map_some]

end

variable {write : α → List τ} {xs : List α}

theorem takes_untilClose (hitem : ∀ x ∈ xs, Takes item (write x) x)
    (hhead : ∀ x ∈ xs, ∃ t us, write x = t :: us ∧ t ≠ close) :
    Takes (untilClose close item) (xs.flatMap write ++ [close]) xs := by
  refine takes_untilClose_before (p := fun _ => True) (fun x hx => (hitem x hx).before)
    (fun x hx => ?_) trivial
  obtain ⟨t, us, hwrite, hne⟩ := hhead x hx
  exact ⟨t, us, hwrite, hne, trivial⟩

theorem takes_someUntilClose {x : α} (hitem : ∀ y ∈ x :: xs, Takes item (write y) y)
    (hhead : ∀ y ∈ xs, ∃ t us, write y = t :: us ∧ t ≠ close) :
    Takes (someUntilClose close item) ((x :: xs).flatMap write ++ [close]) (x :: xs) := by
  refine takes_someUntilClose_before (p := fun _ => True) (fun y hy => (hitem y hy).before)
    (fun y hy => ?_) trivial
  obtain ⟨t, us, hwrite, hne⟩ := hhead y hy
  exact ⟨t, us, hwrite, hne, trivial⟩

end

end Reader

end SelectionCompiler
