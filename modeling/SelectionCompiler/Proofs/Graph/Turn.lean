import SelectionCompiler.Proofs.Graph.Blocked
import Mathlib.Data.Prod.Lex
import Mathlib.Order.Lattice.Nat

/-!
The emission order without its queue. The turn of a type comes with the last type that it
depends on: it is one more than the place of that type, and zero if there is none. Main
statement: free types leave in the order of their turns, and those of the same turn in the
order of their discovery; so they leave in the order of the lengths of their longest chains
of dependencies.

The invariant is on the types that have left, those that are ready, and those still to be
told that the last one left, one after the other: they are sorted all the time. What is told
either becomes ready in its place or drops out.
-/

namespace SelectionCompiler

namespace TypeGraph

instance (g : TypeGraph) (type other : String) : Decidable (g.DependsOn type other) :=
  inferInstanceAs (Decidable (other ≠ type ∧ g.contains other = true ∧
    ∃ field ∈ g.fields type, field.isComposite = true ∧ field.target = other))

/-- One more than the place in `order` of the last type there that `type` depends on, and
zero if there is none. -/
def turn (g : TypeGraph) (order : List String) (type : String) : Nat :=
  match (order.filter (g.DependsOn type ·)).getLast? with
  | some last => order.idxOf last + 1
  | none => 0

/-- Types of an earlier turn come before those of a later one, and those of the same turn
in order of discovery. -/
def Before (g : TypeGraph) (order : List String) (type other : String) : Prop :=
  toLex (g.turn order type, g.names.idxOf type) < toLex (g.turn order other, g.names.idxOf other)

instance (g : TypeGraph) (order : List String) (type other : String) :
    Decidable (g.Before order type other) :=
  decidable_of_iff _ Prod.Lex.toLex_lt_toLex.symm

/-- So many steps along dependencies lead on from the type. -/
inductive Chain (g : TypeGraph) : String → Nat → Prop
  | nil (type : String) : Chain g type 0
  | cons {type other : String} {n : Nat} :
      g.DependsOn type other → Chain g other n → Chain g type (n + 1)

variable {g : TypeGraph} {order : List String} {type other last : String}

/-! ### Turns -/

theorem turn_le_length (g : TypeGraph) (order : List String) (type : String) :
    g.turn order type ≤ order.length := by
  unfold turn
  split
  · rename_i last hlast
    exact List.idxOf_lt_length_of_mem (List.mem_of_mem_filter (List.mem_of_getLast? hlast))
  · exact Nat.zero_le _

theorem turn_append {rest : List String} (h : ∀ other ∈ rest, ¬g.DependsOn type other) :
    g.turn (order ++ rest) type = g.turn order type := by
  have hrest : rest.filter (g.DependsOn type ·) = [] := by
    simpa [List.filter_eq_nil_iff] using h
  unfold turn
  rw [List.filter_append, hrest, List.append_nil]
  split
  · rename_i last hlast
    rw [List.idxOf_append_of_mem (List.mem_of_mem_filter (List.mem_of_getLast? hlast))]
  · rfl

theorem turn_concat (hlast : last ∉ order) (h : g.DependsOn type last) :
    g.turn (order ++ [last]) type = order.length + 1 := by
  simp [turn, List.filter_append, h, List.idxOf_append_of_notMem hlast]

theorem turn_of_mem_otherDependents (hnew : type ∉ order)
    (h : other ∈ g.dependencyGraph.otherDependents type) :
    g.turn (order ++ [type]) other = order.length + 1 := by
  obtain ⟨_, href, hne⟩ := DependencyGraph.mem_otherDependents.mp h
  exact turn_concat hnew ⟨hne.symm, mem_referencesOf.mp href⟩

theorem idxOf_lt_turn (hnodup : order.Nodup) (hother : other ∈ order)
    (h : g.DependsOn type other) : order.idxOf other < g.turn order type := by
  -- from the end: the last type decides on the turn, or it plays no part
  induction order using List.reverseRecOn with
  | nil => cases hother
  | append_singleton order last ih =>
      have hlast : last ∉ order := fun hmem =>
        (List.nodup_append.mp hnodup).2.2 last hmem last (by simp) rfl
      by_cases hdepends : g.DependsOn type last
      · rw [turn_concat hlast hdepends]
        simpa using List.idxOf_lt_length_of_mem hother
      · have hmem : other ∈ order := by
          rcases List.mem_append.mp hother with hmem | heq
          · exact hmem
          · rw [List.mem_singleton.mp heq] at h
            exact absurd h hdepends
        rw [turn_append (by simpa using hdepends), List.idxOf_append_of_mem hmem]
        exact ih (List.nodup_append.mp hnodup).1 hmem

theorem exists_of_turn_pos (h : 0 < g.turn order type) :
    ∃ last ∈ order, g.DependsOn type last ∧ g.turn order type = order.idxOf last + 1 := by
  unfold turn at h ⊢
  split at h
  · rename_i last hlast
    obtain ⟨hmem, hdepends⟩ := List.mem_filter.mp (List.mem_of_getLast? hlast)
    exact ⟨last, hmem, of_decide_eq_true hdepends, rfl⟩
  · exact absurd h (Nat.lt_irrefl 0)

theorem Before.turn_le (h : g.Before order type other) :
    g.turn order type ≤ g.turn order other := by
  rcases Prod.Lex.toLex_lt_toLex.mp h with hlt | ⟨heq, _⟩
  · exact Nat.le_of_lt hlt
  · exact Nat.le_of_eq heq

/-! ### Sorted lists -/

theorem idxOf_lt_iff_before {types : List String} (h : types.Pairwise (g.Before order))
    (htype : type ∈ types) (hother : other ∈ types) (hne : type ≠ other) :
    types.idxOf type < types.idxOf other ↔ g.Before order type other := by
  have hbefore {first second : String} (hfirst : first ∈ types) (hsecond : second ∈ types)
      (hlt : types.idxOf first < types.idxOf second) : g.Before order first second := by
    have hpair := List.pairwise_iff_getElem.mp h _ _ (List.idxOf_lt_length_of_mem hfirst)
      (List.idxOf_lt_length_of_mem hsecond) hlt
    rwa [List.getElem_idxOf, List.getElem_idxOf] at hpair
  refine ⟨hbefore htype hother, fun hless => ?_⟩
  by_contra hle
  have hplaces : types.idxOf type ≠ types.idxOf other := mt (List.idxOf_inj htype).mp hne
  have hgreater := hbefore hother htype (by omega)
  exact lt_asymm hless hgreater

/-- Types of one turn are sorted when they are listed as they were discovered. -/
theorem pairwise_before_of_turn_eq {types : List String} {place : Nat}
    (hdiscovered : types.Sublist g.names) (hturn : ∀ type ∈ types, g.turn order type = place) :
    types.Pairwise (g.Before order) := by
  refine ((pairwise_idxOf_lt g.types.nodup_keys).sublist hdiscovered).imp_of_mem ?_
  intro type other htype hother hlt
  exact Prod.Lex.toLex_lt_toLex.mpr (.inr ⟨by rw [hturn type htype, hturn other hother], hlt⟩)

end TypeGraph

/-! ### The run -/

namespace Departure

open TypeGraph

variable {g : TypeGraph} {s : Departure} {type : String} {rest untold : List String}

/-- What a type depends on has left before it becomes ready; its turn is settled by then. -/
theorem Invariant.turn_leave (h : s.Invariant g.dependencyGraph [])
    (hready : s.ready = type :: rest) {other : String} (hother : other ∈ s.left ++ s.ready) :
    g.turn (s.left ++ [type]) other = g.turn s.left other := by
  have hgone := awaited_eq_nil_iff.mp ((h.due other (h.inside other hother)).mp hother).1
  refine turn_append fun last hlast hdepends => h.notMem_left hready ?_
  rw [← List.mem_singleton.mp hlast]
  exact hgone last hdepends

theorem Reached.pairwise_before (h : Reached g.dependencyGraph untold s) :
    (s.left ++ s.ready ++ untold).Pairwise (g.Before s.left) := by
  induction h with
  | start =>
      rw [List.append_nil]
      refine pairwise_before_of_turn_eq ?_ fun _ _ => rfl
      rw [← nodes_dependencyGraph]
      exact List.filter_sublist
  | @leave type rest s h hready ih =>
      have hlist : (s.left ++ [type]) ++ rest = s.left ++ s.ready := by simp [hready]
      have hold : ∀ other ∈ s.left ++ s.ready,
          g.turn (s.left ++ [type]) other = g.turn s.left other := fun _ hother =>
        h.invariant.turn_leave hready hother
      have hnew : ∀ other ∈ g.dependencyGraph.otherDependents type,
          g.turn (s.left ++ [type]) other = s.left.length + 1 := fun _ hother =>
        turn_of_mem_otherDependents (h.invariant.notMem_left hready) hother
      rw [List.append_nil] at ih
      refine List.pairwise_append.mpr ⟨?_, ?_, ?_⟩
      · rw [hlist]
        refine ih.imp_of_mem fun {first second} hfirst hsecond hless => ?_
        rwa [Before, hold first hfirst, hold second hsecond]
      · refine pairwise_before_of_turn_eq ?_ hnew
        rw [← nodes_dependencyGraph]
        exact g.dependencyGraph.otherDependents_sublist type
      · intro first hfirst second hsecond
        rw [hlist] at hfirst
        refine Prod.Lex.toLex_lt_toLex.mpr (.inl ?_)
        simp only [hold first hfirst, hnew second hsecond]
        exact Nat.lt_succ_of_le (g.turn_le_length s.left first)
  | @tell type untold s h ih =>
      rw [left_release, ready_release]
      split
      · simpa using ih
      · exact ih.sublist (List.sublist_cons_self _ _ |>.append_left _)

end Departure

namespace TypeGraph

variable {g : TypeGraph} {type other : String} {n : Nat}

theorem pairwise_before_finish (g : TypeGraph) :
    g.dependencyGraph.finish.left.Pairwise (g.Before g.dependencyGraph.finish.left) := by
  have hreached : Departure.Reached g.dependencyGraph [] g.dependencyGraph.finish :=
    Departure.Reached.start.steps _
  simpa [g.dependencyGraph.ready_finish] using hreached.pairwise_before

theorem idxOf_emissionOrder (h : type ∈ g.dependencyGraph.finish.left) :
    g.dependencyGraph.emissionOrder.idxOf type = g.dependencyGraph.finish.left.idxOf type :=
  List.idxOf_append_of_mem h

theorem turn_emissionOrder (h : type ∈ g.dependencyGraph.finish.left) :
    g.turn g.dependencyGraph.emissionOrder type = g.turn g.dependencyGraph.finish.left type := by
  refine turn_append fun other hother hdepends => ?_
  have hgone := (g.ordered_finish.idxOf_lt h hdepends).1
  exact of_decide_eq_true (List.mem_filter.mp hother).2 hgone

/-! ### Chains -/

/-- The places go down along a chain. -/
theorem Chain.le_idxOf {types : List String} (hordered : g.Ordered types) (htype : type ∈ types)
    (h : g.Chain type n) : n ≤ types.idxOf type := by
  induction h with
  | nil type => exact Nat.zero_le _
  | cons hdepends _ ih =>
      obtain ⟨hother, hlt⟩ := hordered.idxOf_lt htype hdepends
      exact Nat.lt_of_le_of_lt (ih hother) hlt

/-- Going down from a type, the later one can keep pace by going down to the last type that
it depends on each time. -/
theorem Chain.of_idxOf_le (htype : type ∈ g.dependencyGraph.finish.left)
    (hother : other ∈ g.dependencyGraph.finish.left)
    (hle : g.dependencyGraph.finish.left.idxOf type ≤ g.dependencyGraph.finish.left.idxOf other)
    (h : g.Chain type n) : g.Chain other n := by
  induction h generalizing other with
  | nil type => exact .nil other
  | @cons type next n hdepends hchain ih =>
      by_cases heq : type = other
      · exact heq ▸ .cons hdepends hchain
      · have hplaces := mt (List.idxOf_inj htype).mp heq
        have hbefore := (idxOf_lt_iff_before g.pairwise_before_finish htype hother heq).mp
          (by omega)
        obtain ⟨hnext, -⟩ := g.ordered_finish.idxOf_lt htype hdepends
        have hnodup := (List.nodup_append.mp g.dependencyGraph.finish_invariant.distinct).1
        have hturn := idxOf_lt_turn hnodup hnext hdepends
        have hturns := hbefore.turn_le
        obtain ⟨last, hlast, hlastDepends, hplace⟩ :=
          exists_of_turn_pos (Nat.lt_of_lt_of_le (Nat.zero_lt_of_lt hturn) hturns)
        exact .cons hlastDepends (ih hnext hlast (by omega))

theorem exists_isGreatest_chain (h : type ∈ g.dependencyGraph.finish.left) :
    ∃ n, IsGreatest {n | g.Chain type n} n := by
  have hbounded : BddAbove {n | g.Chain type n} :=
    ⟨_, fun _ hchain => Chain.le_idxOf g.ordered_finish h hchain⟩
  exact ⟨_, Nat.sSup_mem ⟨0, .nil type⟩ hbounded, fun _ hchain => le_csSup hbounded hchain⟩

/-! ### The order -/

/-- Of two free types the one of the earlier turn stands first in the emission order, at the
same turn the one discovered first; and the longest chain from it is not the longer one. -/
theorem emissionOrder_idxOf_lt_iff (g : TypeGraph) (type other : String)
    (htype : type ∈ g.names ∧ ¬g.Blocked type) (hother : other ∈ g.names ∧ ¬g.Blocked other)
    (hne : type ≠ other) :
    let order := g.dependencyGraph.emissionOrder
    (order.idxOf type < order.idxOf other ↔ g.Before order type other) ∧
      ∃ m n, IsGreatest {m | g.Chain type m} m ∧ IsGreatest {n | g.Chain other n} n ∧
        (order.idxOf type < order.idxOf other → m ≤ n) := by
  intro order
  have htype := mem_left_finish_iff.mpr htype
  have hother := mem_left_finish_iff.mpr hother
  obtain ⟨m, hm⟩ := exists_isGreatest_chain htype
  obtain ⟨n, hn⟩ := exists_isGreatest_chain hother
  rw [Before, turn_emissionOrder htype, turn_emissionOrder hother, idxOf_emissionOrder htype,
    idxOf_emissionOrder hother]
  refine ⟨idxOf_lt_iff_before g.pairwise_before_finish htype hother hne, m, n, hm, hn, ?_⟩
  intro hlt
  exact hn.2 (Chain.of_idxOf_le htype hother (Nat.le_of_lt hlt) hm.1)

/-- Posts and users wait for tags, a feed for both of them; users refer to users, and two
types to each other. -/
def feed : TypeGraph :=
  let leadsTo (target : String) : FieldTarget := ⟨"next", target, .composite⟩
  ⟨.ofList [("Feed", [leadsTo "Post", leadsTo "User"]), ("Left", [leadsTo "Right"]),
    ("User", [leadsTo "User", leadsTo "Tag"]), ("Post", [leadsTo "Tag", leadsTo "Tag"]),
    ("Right", [leadsTo "Left", leadsTo "Tag"]), ("Tag", [⟨"label", "String", .leaf⟩])]⟩

theorem emissionOrder_idxOf_lt_iff_feed :
    let order := feed.dependencyGraph.emissionOrder
    order = ["Tag", "User", "Post", "Feed", "Left", "Right"] ∧
      ("User" ∈ feed.names ∧ ¬feed.Blocked "User") ∧ ("Post" ∈ feed.names ∧ ¬feed.Blocked "Post") ∧
      "User" ≠ "Post" ∧ (order.idxOf "User" < order.idxOf "Post" ↔ feed.Before order "User" "Post") ∧
      ∃ m n, IsGreatest {m | feed.Chain "User" m} m ∧ IsGreatest {n | feed.Chain "Post" n} n ∧
        (order.idxOf "User" < order.idxOf "Post" → m ≤ n) :=
  have huser := mem_left_finish_iff.mp (show "User" ∈ feed.dependencyGraph.finish.left by decide)
  have hpost := mem_left_finish_iff.mp (show "Post" ∈ feed.dependencyGraph.finish.left by decide)
  ⟨by decide, huser, hpost, by decide,
    feed.emissionOrder_idxOf_lt_iff "User" "Post" huser hpost (by decide)⟩

end TypeGraph

end SelectionCompiler
