import SelectionCompiler.Proofs.StaticModule.Claims

/-!
Claims as a search. An identifier is offered, and while it is in use the wanted name is
offered with one number after the other; nothing bounds the number of offers. Main
statement: the search ends, whatever is in use and whatever is wanted. It ends with the
identifier that is claimed, the first free one in the order of the offers, and puts that one
in use and no other. So claims in a row give distinct identifiers.
-/

namespace SelectionCompiler.Identifier

/-- A search that offers `candidate`, and after it the wanted name with the numbers from `n`
on, ends with an identifier and leaves the identifiers `after` in use. -/
inductive Finds (wanted : String) (used : List String) :
    (candidate : String) → (n : Nat) → (identifier : String) → (after : List String) → Prop
  | free {candidate : String} {n : Nat} :
      candidate ∉ used → Finds wanted used candidate n candidate (candidate :: used)
  | taken {candidate identifier : String} {n : Nat} {after : List String} :
      candidate ∈ used → Finds wanted used (numbered wanted n) (n + 1) identifier after →
      Finds wanted used candidate n identifier after

/-- The identifier of the wanted name if it is free, or else of the wanted name with the
least number, from two on, for which it is free. -/
structure FirstFree (used : List String) (wanted identifier : String) : Prop where
  free : identifier ∉ used
  unnumbered : ofName wanted ∉ used → identifier = ofName wanted
  least : ofName wanted ∈ used → ∃ n, 2 ≤ n ∧ identifier = ofName (wanted ++ "_" ++ n.repr) ∧
    ∀ m, 2 ≤ m → m < n → ofName (wanted ++ "_" ++ m.repr) ∈ used

/-- The identifiers that claims in a row give, each with the ones before it in use. -/
def claimAll (used : List String) : List String → List String
  | [] => []
  | wanted :: rest => claim used wanted :: claimAll (claim used wanted :: used) rest

variable {used : List String} {wanted : String}

/-! ### The search -/

/-- The numbers that are taken lead to the first one that is free. -/
theorem finds_numbered {m n : Nat} (hle : m ≤ n) (hfree : numbered wanted n ∉ used)
    (htaken : ∀ k, m ≤ k → k < n → numbered wanted k ∈ used) :
    Finds wanted used (numbered wanted m) (m + 1) (numbered wanted n)
      (numbered wanted n :: used) := by
  -- induction on how many offers are still to come
  induction hd : n - m generalizing m with
  | zero =>
      obtain rfl : m = n := by omega
      exact .free hfree
  | succ d ih =>
      have hnow : numbered wanted m ∈ used := htaken m (Nat.le_refl m) (by omega)
      have hlater : ∀ k, m + 1 ≤ k → k < n → numbered wanted k ∈ used :=
        fun k hk => htaken k (by omega)
      exact .taken hnow (ih (by omega) hlater (by omega))

theorem finds_claim (used : List String) (wanted : String) :
    Finds wanted used (ofName wanted) 2 (claim used wanted) (claim used wanted :: used) := by
  by_cases h : ofName wanted ∈ used
  · obtain ⟨n, htwo, _, hclaim, hfree, htaken⟩ := claim_of_mem h
    rw [hclaim]
    exact .taken h (finds_numbered htwo hfree htaken)
  · rw [claim_of_notMem h]
    exact .free h

theorem Finds.unique {candidate identifier other : String} {n : Nat}
    {after after' : List String} (h : Finds wanted used candidate n identifier after)
    (h' : Finds wanted used candidate n other after') : other = identifier ∧ after' = after := by
  induction h with
  | free hfree =>
      cases h' with
      | free _ => exact ⟨rfl, rfl⟩
      | taken htaken _ => exact absurd htaken hfree
  | taken htaken _ ih =>
      cases h' with
      | free hfree => exact absurd htaken hfree
      | taken _ hrest => exact ih hrest

theorem finds_iff {identifier : String} {after : List String} :
    Finds wanted used (ofName wanted) 2 identifier after ↔
      identifier = claim used wanted ∧ after = claim used wanted :: used := by
  constructor
  · exact (finds_claim used wanted).unique
  · rintro ⟨rfl, rfl⟩
    exact finds_claim used wanted

/-! ### The first free identifier -/

theorem firstFree_claim (used : List String) (wanted : String) :
    FirstFree used wanted (claim used wanted) where
  free := claim_notMem used wanted
  unnumbered := claim_of_notMem
  least h := by
    obtain ⟨n, htwo, _, hclaim, _, htaken⟩ := claim_of_mem h
    exact ⟨n, htwo, hclaim, htaken⟩

theorem FirstFree.unique {identifier other : String} (h : FirstFree used wanted identifier)
    (h' : FirstFree used wanted other) : identifier = other := by
  by_cases hused : ofName wanted ∈ used
  · obtain ⟨m, hm, rfl, hbeforem⟩ := h.least hused
    obtain ⟨n, hn, rfl, hbeforen⟩ := h'.least hused
    -- the greater of two numbers would have a free one before it
    rcases Nat.lt_trichotomy m n with hlt | rfl | hlt
    · exact absurd (hbeforen m hm hlt) h.free
    · rfl
    · exact absurd (hbeforem n hn hlt) h'.free
  · rw [h.unnumbered hused, h'.unnumbered hused]

/-- Claims ask which identifiers are in use and not in which order. -/
theorem claim_congr {other : List String}
    (h : ∀ identifier, identifier ∈ other ↔ identifier ∈ used) (wanted : String) :
    claim other wanted = claim used wanted := by
  obtain ⟨hfree, hunnumbered, hleast⟩ := firstFree_claim other wanted
  simp only [h] at hfree hunnumbered hleast
  exact FirstFree.unique ⟨hfree, hunnumbered, hleast⟩ (firstFree_claim used wanted)

/-! ### Claims in a row -/

theorem claims_claimAll (used wanteds : List String) :
    Claims used ((claimAll used wanteds).reverse ++ used) [] (claimAll used wanteds) := by
  induction wanteds generalizing used with
  | nil => exact Claims.nil used
  | cons wanted rest ih =>
      have hall := (Claims.claim used wanted).append (ih (claim used wanted :: used))
        (List.nil_subset _) (List.disjoint_nil_left _)
      simpa [claimAll] using hall

theorem length_claimAll (used wanteds : List String) :
    (claimAll used wanteds).length = wanteds.length := by
  induction wanteds generalizing used with
  | nil => rfl
  | cons wanted rest ih => rw [claimAll, List.length_cons, ih, List.length_cons]

example : claimAll ["r#type"] ["a", "a_2", "a", "type", "self"] =
    ["a", "a_2", "a_3", "type_2", "self_"] := by decide +kernel

end SelectionCompiler.Identifier
