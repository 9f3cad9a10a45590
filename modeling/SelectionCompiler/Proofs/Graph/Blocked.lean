import SelectionCompiler.Proofs.Graph.Departure
import Mathlib.Data.List.Infix
import Mathlib.Data.Set.Finite.List
import Mathlib.Logic.Relation
import Mathlib.Order.WellFounded

/-!
What the emission order does about cycles. A type is blocked when it depends, directly
or not, on a type of a cycle; a type that refers to itself makes no cycle. Main
statement: the free types come first, each after all that it depends on, and the
blocked ones follow in order of discovery.

That no blocked type leaves is seen from the places in the order, which go down along
dependencies and so cannot go around a cycle. That every free type leaves is an
induction along the dependencies of free types, which is well-founded because there
are finitely many of them and no cycle among them.
-/

namespace SelectionCompiler

namespace TypeGraph

/-- A composite field of `type` leads to `other`, which is another type of the graph. -/
def DependsOn (g : TypeGraph) (type other : String) : Prop :=
  other ≠ type ∧ g.contains other = true ∧
    ∃ field ∈ g.fields type, field.isComposite = true ∧ field.target = other

/-- A chain of dependencies, possibly empty, leads from one type to the other. -/
def Reaches (g : TypeGraph) : String → String → Prop := Relation.ReflTransGen g.DependsOn

/-- The type lies on a cycle of two or more types. -/
def OnCycle (g : TypeGraph) (type : String) : Prop :=
  ∃ other, other ≠ type ∧ g.Reaches type other ∧ g.Reaches other type

/-- The type lies on a cycle or reaches one. -/
def Blocked (g : TypeGraph) (type : String) : Prop :=
  ∃ other, g.Reaches type other ∧ g.OnCycle other

/-- Every type of the list comes after all types that it depends on. -/
def Ordered (g : TypeGraph) (types : List String) : Prop :=
  ∀ before type after, types = before ++ type :: after → ∀ other, g.DependsOn type other →
    other ∈ before

/-- The two parts of an order: free types as their dependencies ask for it, and blocked
types in order of discovery. -/
structure SplitsInto (g : TypeGraph) (order free blocked : List String) : Prop where
  append : order = free ++ blocked
  mem_free : ∀ type, type ∈ free ↔ type ∈ g.names ∧ ¬g.Blocked type
  ordered : g.Ordered free
  mem_blocked : ∀ type, type ∈ blocked ↔ type ∈ g.names ∧ g.Blocked type
  discovered : blocked.Sublist g.names

variable {g : TypeGraph}

theorem DependsOn.mem_names {type other : String} (h : g.DependsOn type other) :
    type ∈ g.names ∧ other ∈ g.names := by
  obtain ⟨_, hother, field, hfield, _⟩ := h
  exact ⟨mem_names_of_mem_fields hfield, OrdMap.contains_iff.mp hother⟩

theorem mem_awaited {left : List String} {type other : String} :
    other ∈ g.dependencyGraph.awaited left type ↔ g.DependsOn type other ∧ other ∉ left := by
  rw [DependencyGraph.mem_awaited, mem_referencesOf, DependsOn]
  tauto

theorem awaited_eq_nil_iff {left : List String} {type : String} :
    g.dependencyGraph.awaited left type = [] ↔ ∀ other, g.DependsOn type other → other ∈ left := by
  rw [List.eq_nil_iff_forall_not_mem]
  simp only [mem_awaited, not_and, not_not]

/-! ### Cycles -/

theorem onCycle_of_transGen {type : String} (h : Relation.TransGen g.DependsOn type type) :
    g.OnCycle type := by
  obtain ⟨other, hstep, hback⟩ := Relation.TransGen.head'_iff.mp h
  exact ⟨other, hstep.1, .single hstep, hback⟩

theorem Blocked.of_dependsOn {type other : String} (h : g.DependsOn type other)
    (hother : g.Blocked other) : g.Blocked type := by
  obtain ⟨target, hreach, hcycle⟩ := hother
  exact ⟨target, .head h hreach, hcycle⟩

/-! ### No blocked type in an ordered list -/

namespace Ordered

variable {types : List String}

theorem nil (g : TypeGraph) : g.Ordered [] := by
  intro before type after h
  simp at h

theorem concat {type : String} (h : g.Ordered types)
    (htype : ∀ other, g.DependsOn type other → other ∈ types) : g.Ordered (types ++ [type]) := by
  intro before middle after heq other hother
  rcases List.eq_nil_or_concat after with rfl | ⟨rest, last, rfl⟩
  · obtain ⟨rfl, hlast⟩ := List.append_inj' heq rfl
    cases hlast
    exact htype other hother
  · have hsplit : types ++ [type] = (before ++ middle :: rest) ++ [last] := by simpa using heq
    obtain ⟨rfl, _⟩ := List.append_inj' hsplit rfl
    exact h before middle rest rfl other hother

theorem idxOf_lt {type other : String} (h : g.Ordered types) (htype : type ∈ types)
    (hdepends : g.DependsOn type other) : other ∈ types ∧ types.idxOf other < types.idxOf type := by
  obtain ⟨before, after, rfl, hfirst⟩ := List.eq_append_cons_of_mem htype
  have hother := h before type after rfl other hdepends
  refine ⟨List.mem_append_left _ hother, ?_⟩
  rw [List.idxOf_append_of_mem hother, List.idxOf_append_of_notMem hfirst, List.idxOf_cons_self]
  exact List.idxOf_lt_length_of_mem hother

theorem idxOf_le {type other : String} (h : g.Ordered types) (htype : type ∈ types)
    (hreach : g.Reaches type other) :
    other ∈ types ∧ (other ≠ type → types.idxOf other < types.idxOf type) := by
  induction hreach with
  | refl => exact ⟨htype, fun hne => absurd rfl hne⟩
  | @tail middle last _ hstep ih =>
      obtain ⟨hmiddle, hle⟩ := ih
      obtain ⟨hlast, hlt⟩ := h.idxOf_lt hmiddle hstep
      refine ⟨hlast, fun _ => ?_⟩
      by_cases heq : middle = type
      · exact heq ▸ hlt
      · exact Nat.lt_trans hlt (hle heq)

theorem not_blocked {type : String} (h : g.Ordered types) (htype : type ∈ types) :
    ¬g.Blocked type := by
  rintro ⟨first, hfirst, second, hne, hthere, hback⟩
  obtain ⟨hmem, _⟩ := h.idxOf_le htype hfirst
  obtain ⟨hsecond, hlt⟩ := h.idxOf_le hmem hthere
  have hgt := (h.idxOf_le hsecond hback).2 hne.symm
  exact Nat.lt_asymm (hlt hne) hgt

end Ordered

/-! ### Every free type leaves -/

abbrev Free (g : TypeGraph) := { type // type ∈ g.names ∧ ¬g.Blocked type }

/-- The free type `type` depends on the free type `other`. -/
def Free.Below (other type : g.Free) : Prop := g.DependsOn type.1 other.1

theorem Free.wellFounded_below (g : TypeGraph) : WellFounded (Free.Below (g := g)) := by
  have hfinite : Finite g.Free :=
    ((List.finite_toSet g.names).subset fun _ h => h.1).to_subtype
  have hirrefl : Std.Irrefl (Relation.TransGen (Free.Below (g := g))) := by
    refine ⟨fun type hcycle => type.2.2 ⟨type.1, .refl, onCycle_of_transGen ?_⟩⟩
    exact Relation.transGen_swap.mp
      (Relation.TransGen.lift Subtype.val (fun _ _ hstep => hstep) _ _ hcycle)
  have hwf := Finite.wellFounded_of_trans_of_irrefl (Relation.TransGen (Free.Below (g := g)))
  exact Subrelation.wf .single hwf

end TypeGraph

open Departure in
theorem Departure.Invariant.ordered_step {g : TypeGraph} {s : Departure}
    (h : s.Invariant g.dependencyGraph []) (hordered : g.Ordered s.left) :
    g.Ordered (s.step g.dependencyGraph).left := by
  cases hready : s.ready with
  | nil => rwa [show s.step g.dependencyGraph = s from steps_of_ready_eq_nil hready 1]
  | cons type rest =>
      rw [left_step hready]
      have hmem : type ∈ s.left ++ s.ready := by simp [hready]
      refine hordered.concat (TypeGraph.awaited_eq_nil_iff.mp ?_)
      exact ((h.due type (h.inside type hmem)).mp hmem).1

theorem Departure.Invariant.ordered_steps {g : TypeGraph} {s : Departure}
    (h : s.Invariant g.dependencyGraph []) (hordered : g.Ordered s.left) (n : Nat) :
    g.Ordered (Departure.steps g.dependencyGraph n s).left := by
  induction n generalizing s with
  | zero => exact hordered
  | succ n ih => exact ih h.step (h.ordered_step hordered)

namespace TypeGraph

variable {g : TypeGraph}

theorem ordered_finish (g : TypeGraph) : g.Ordered g.dependencyGraph.finish.left :=
  (Departure.Invariant.start g.dependencyGraph).ordered_steps (Ordered.nil g) _

/-- In the end a type has left as soon as all that it depends on has. -/
theorem mem_left_finish {type : String} (hname : type ∈ g.names)
    (h : ∀ other, g.DependsOn type other → other ∈ g.dependencyGraph.finish.left) :
    type ∈ g.dependencyGraph.finish.left := by
  have hnode : type ∈ g.dependencyGraph.nodes := by rwa [nodes_dependencyGraph]
  have hdue := (g.dependencyGraph.finish_invariant.due type hnode).mpr
    ⟨awaited_eq_nil_iff.mpr h, List.not_mem_nil⟩
  rwa [g.dependencyGraph.ready_finish, List.append_nil] at hdue

theorem mem_left_finish_of_free (type : g.Free) : type.1 ∈ g.dependencyGraph.finish.left := by
  induction type using (Free.wellFounded_below g).induction with
  | _ type ih =>
      refine mem_left_finish type.2.1 fun other hdepends => ?_
      have hfree : ¬g.Blocked other := fun hblocked => type.2.2 (.of_dependsOn hdepends hblocked)
      exact ih ⟨other, hdepends.mem_names.2, hfree⟩ hdepends

theorem mem_left_finish_iff {type : String} :
    type ∈ g.dependencyGraph.finish.left ↔ type ∈ g.names ∧ ¬g.Blocked type := by
  constructor
  · intro hleft
    refine ⟨?_, g.ordered_finish.not_blocked hleft⟩
    rw [← nodes_dependencyGraph]
    exact g.dependencyGraph.finish_invariant.inside type (List.mem_append_left _ hleft)
  · exact fun hfree => mem_left_finish_of_free ⟨type, hfree⟩

theorem splitsInto_emissionOrder (g : TypeGraph) :
    g.SplitsInto g.dependencyGraph.emissionOrder g.dependencyGraph.finish.left
      (g.names.filter (· ∉ g.dependencyGraph.finish.left)) where
  append := by rw [DependencyGraph.emissionOrder, nodes_dependencyGraph]
  mem_free _ := mem_left_finish_iff
  ordered := g.ordered_finish
  mem_blocked type := by
    simp only [List.mem_filter, decide_eq_true_eq, mem_left_finish_iff]
    tauto
  discovered := List.filter_sublist

theorem SplitsInto.ordered_of_acyclic {order free blocked : List String}
    (h : g.SplitsInto order free blocked) (hacyclic : ∀ type, ¬g.OnCycle type) :
    g.Ordered order := by
  have hnone : blocked = [] := by
    rw [List.eq_nil_iff_forall_not_mem]
    intro type htype
    obtain ⟨_, other, _, hcycle⟩ := (h.mem_blocked type).mp htype
    exact hacyclic other hcycle
  rw [h.append, hnone, List.append_nil]
  exact h.ordered

/-- The emission order respects dependencies as far as cycles allow, and fully when
there is no cycle. -/
theorem emissionOrder_splitsInto (g : TypeGraph) :
    (∃ free blocked, g.SplitsInto g.dependencyGraph.emissionOrder free blocked) ∧
      ((∀ type, ¬g.OnCycle type) → g.Ordered g.dependencyGraph.emissionOrder) :=
  ⟨⟨_, _, g.splitsInto_emissionOrder⟩, g.splitsInto_emissionOrder.ordered_of_acyclic⟩

end TypeGraph

end SelectionCompiler
