import SelectionCompiler.Proofs.Graph.EmissionOrder
import Mathlib.Data.List.Perm.Subperm

/-!
The run of the ordering. It goes through one state for each type that leaves and
through one more for each dependent that is told of it. Main statement: the run
comes to an end, no counter is lowered below zero on the way, and no type becomes
ready twice.

The counters can be read off before the run: that of a type is the number of times
that it stands in the lists of dependents of all types, which are the lists that
the run goes through.
-/

namespace SelectionCompiler

namespace Departure

/-- The states of a run, with the types still to be told that the last type left. -/
inductive Reached (g : DependencyGraph) : List String → Departure → Prop
  | start : Reached g [] g.start
  | leave {type : String} {rest : List String} {s : Departure} :
      Reached g [] s → s.ready = type :: rest →
        Reached g (g.otherDependents type) { s with ready := rest, left := s.left ++ [type] }
  | tell {type : String} {untold : List String} {s : Departure} :
      Reached g (type :: untold) s → Reached g untold (s.release type)

variable {g : DependencyGraph} {s : Departure} {untold : List String}

namespace Reached

/-- The types still to be told are some of the last dependents. -/
theorem untold_nodes (h : Reached g untold s) :
    (∀ type ∈ untold, type ∈ g.nodes) ∧ untold.Nodup := by
  induction h with
  | start => exact ⟨fun _ h => absurd h List.not_mem_nil, List.nodup_nil⟩
  | leave _ _ _ =>
      refine ⟨fun other hother => ?_, g.nodup_otherDependents _⟩
      exact (DependencyGraph.mem_otherDependents.mp hother).1
  | tell _ ih =>
      obtain ⟨hnodes, hnodup⟩ := ih
      exact ⟨fun other hother => hnodes other (List.mem_cons_of_mem _ hother),
        (List.nodup_cons.mp hnodup).2⟩

theorem invariant (h : Reached g untold s) : s.Invariant g untold := by
  induction h with
  | start => exact Invariant.start g
  | leave _ hready ih => exact ih.leave hready
  | tell h ih =>
      obtain ⟨hnodes, hnodup⟩ := h.untold_nodes
      exact ih.release (hnodes _ List.mem_cons_self) (List.nodup_cons.mp hnodup).1

theorem tellAll (h : Reached g untold s) : Reached g [] (untold.foldl Departure.release s) := by
  induction untold generalizing s with
  | nil => exact h
  | cons type rest ih => exact ih h.tell

theorem step (h : Reached g [] s) : Reached g [] (s.step g) := by
  unfold Departure.step
  split
  · exact h
  · rename_i type rest hready
    exact (h.leave hready).tellAll

theorem steps (h : Reached g [] s) (n : Nat) : Reached g [] (Departure.steps g n s) := by
  induction n generalizing s with
  | zero => exact h
  | succ n ih => exact ih h.step

/-- A type that is told waits for the type that left. -/
theorem one_le_waitingFor {type : String} (h : Reached g (type :: untold) s) :
    1 ≤ s.waitingFor type := by
  have hnode := h.untold_nodes.1 type List.mem_cons_self
  rw [h.invariant.counted type hnode, if_pos List.mem_cons_self]
  exact Nat.le_add_left 1 _

end Reached

/-! ### The end of the run -/

theorem left_foldl_release (types : List String) (s : Departure) :
    (types.foldl release s).left = s.left := by
  induction types generalizing s with
  | nil => rfl
  | cons type rest ih => rw [List.foldl_cons, ih, left_release]

theorem left_step {type : String} {rest : List String} (hready : s.ready = type :: rest) :
    (s.step g).left = s.left ++ [type] := by
  simp only [step, hready, left_foldl_release]

theorem steps_of_ready_eq_nil (hready : s.ready = []) (n : Nat) : steps g n s = s := by
  induction n with
  | zero => rfl
  | succ n ih =>
      have hstep : s.step g = s := by simp only [step, hready]
      rw [steps, hstep, ih]

theorem Invariant.length_le_size (h : s.Invariant g untold) :
    s.left.length + s.ready.length ≤ g.size := by
  have hnodes : g.nodes.length = g.size := List.length_map _
  rw [← List.length_append, ← hnodes]
  exact (List.Nodup.subperm h.distinct h.inside).length_le

/-- Every step lets a type leave as long as one is ready, and there are no more types
than those of the graph. -/
theorem Invariant.ready_steps (h : s.Invariant g []) {n : Nat}
    (hn : g.size ≤ s.left.length + n) : (Departure.steps g n s).ready = [] := by
  induction n generalizing s with
  | zero =>
      have hlength := h.length_le_size
      rw [Departure.steps, ← List.length_eq_zero_iff]
      omega
  | succ n ih =>
      cases hready : s.ready with
      | nil => rw [steps_of_ready_eq_nil hready, hready]
      | cons type rest =>
          refine ih h.step ?_
          rw [left_step hready, List.length_append, List.length_singleton]
          omega

end Departure

namespace DependencyGraph

variable {g : DependencyGraph}

theorem ready_finish (g : DependencyGraph) : g.finish.ready = [] :=
  (Departure.Invariant.start g).ready_steps (Nat.le_add_left _ _)

/-! ### The counters at the start -/

theorem count_flatMap_otherDependents (types : List String) (type : String) :
    (types.flatMap g.otherDependents).count type =
      (types.filter fun other => type ∈ g.otherDependents other).length := by
  induction types with
  | nil => rfl
  | cons other rest ih =>
      have hone := (g.nodup_otherDependents other).count (a := type)
      rw [List.flatMap_cons, List.count_append, ih, hone, List.filter_cons]
      by_cases hmem : type ∈ g.otherDependents other
      · simp [hmem, Nat.add_comm]
      · simp [hmem]

/-- A type whose references lie in the graph waits once for each list of dependents in
which it stands. -/
theorem count_otherDependents {type : String} (hnode : type ∈ g.nodes)
    (hinside : ∀ other ∈ g.referencesOf type, other ∈ g.nodes) :
    (g.nodes.flatMap g.otherDependents).count type = g.otherDependencyCount type := by
  have hlist : (g.nodes.filter fun other => type ∈ g.otherDependents other).Perm
      ((g.referencesOf type).toList.filter (· ≠ type)) := by
    rw [List.perm_ext_iff_of_nodup (g.nodup_nodes.filter _) ((g.referencesOf type).nodup.filter _)]
    intro other
    simp only [List.mem_filter, decide_eq_true_eq, mem_otherDependents, OrdSet.mem_toList]
    constructor
    · rintro ⟨_, _, href, hne⟩
      exact ⟨href, hne.symm⟩
    · rintro ⟨href, hne⟩
      exact ⟨hinside other href, hnode, href, hne.symm⟩
  rw [count_flatMap_otherDependents, hlist.length_eq, otherDependencyCount]

/-! ### Safety -/

/-- A run goes through reached states only and is over after as many steps as there are
types. The counters at the start are what the lists of dependents add up to. A
counter that is lowered is at least one, and a type that is ready or has left does
not become ready again. -/
structure RunsSafely (g : DependencyGraph) : Prop where
  visits : ∀ n, Departure.Reached g [] (Departure.steps g n g.start)
  ends : ∀ n, g.size ≤ n → (Departure.steps g n g.start).ready = []
  counted : ∀ type ∈ g.nodes,
    g.start.waitingFor type = (g.nodes.flatMap g.otherDependents).count type
  positive : ∀ type untold s, Departure.Reached g (type :: untold) s → 1 ≤ s.waitingFor type
  once : ∀ untold s, Departure.Reached g untold s → (s.left ++ s.ready).Nodup

theorem runsSafely (hinside : ∀ type, ∀ other ∈ g.referencesOf type, other ∈ g.nodes) :
    g.RunsSafely where
  visits n := Departure.Reached.start.steps n
  ends n hn := (Departure.Invariant.start g).ready_steps (Nat.le_trans hn (Nat.le_add_left _ _))
  counted type hnode := by
    rw [count_otherDependents hnode (hinside type), Departure.waitingFor_start hnode]
  positive _ _ _ h := h.one_le_waitingFor
  once _ _ h := h.invariant.distinct

end DependencyGraph

theorem TypeGraph.references_inside (g : TypeGraph) (type : String) :
    ∀ other ∈ g.dependencyGraph.referencesOf type, other ∈ g.dependencyGraph.nodes := by
  intro other hother
  rw [nodes_dependencyGraph]
  exact OrdMap.contains_iff.mp (mem_referencesOf.mp hother).1

/-- The types of every graph are ordered in a safe run, each of them once and nothing
else. -/
theorem TypeGraph.emissionOrder_total (g : TypeGraph) :
    g.dependencyGraph.RunsSafely ∧ g.dependencyGraph.emissionOrder.Nodup ∧
      ∀ type, type ∈ g.dependencyGraph.emissionOrder ↔ type ∈ g.names := by
  refine ⟨g.dependencyGraph.runsSafely g.references_inside,
    g.dependencyGraph.nodup_emissionOrder, fun type => ?_⟩
  rw [DependencyGraph.mem_emissionOrder, nodes_dependencyGraph]

end SelectionCompiler
