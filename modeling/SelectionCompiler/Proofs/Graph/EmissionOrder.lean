import SelectionCompiler.Graph.EmissionOrder
import SelectionCompiler.Proofs.Graph.DependencyGraph

/-!
The invariant of the ordering. At every step the counter of a type is the number of
other types that it depends on and that have not left; the types that have left
or are ready are those whose counter is zero, each listed once. Main statement:
the emission order lists every type of the graph exactly once.

While the types that depend on a leaving type are being told, the counters of
those still to be told are one too high. The invariant carries the list of them.
-/

namespace SelectionCompiler

namespace DependencyGraph

/-- The other types that `type` depends on and that have not left. -/
def awaited (g : DependencyGraph) (left : List String) (type : String) : List String :=
  ((g.referencesOf type).toList.filter (· ≠ type)).filter (· ∉ left)

variable {g : DependencyGraph}

theorem mem_awaited {left : List String} {type other : String} :
    other ∈ g.awaited left type ↔
      other ∈ g.referencesOf type ∧ other ≠ type ∧ other ∉ left := by
  simp only [awaited, List.mem_filter, decide_eq_true_eq, and_assoc, OrdSet.mem_toList]

theorem mem_otherDependents {type other : String} :
    other ∈ g.otherDependents type ↔
      other ∈ g.nodes ∧ type ∈ g.referencesOf other ∧ other ≠ type := by
  simp [otherDependents, mem_dependents, and_assoc]

theorem nodup_otherDependents (g : DependencyGraph) (type : String) :
    (g.otherDependents type).Nodup :=
  (g.nodup_dependents type).filter _

theorem otherDependents_sublist (g : DependencyGraph) (type : String) :
    (g.otherDependents type).Sublist g.nodes :=
  List.filter_sublist.trans (List.filter_sublist.map Prod.fst)

/-! ### What a leaving type changes -/

theorem awaited_concat (left : List String) (type other : String) :
    g.awaited (left ++ [type]) other = (g.awaited left other).filter (· ≠ type) := by
  simp only [awaited, List.filter_filter]
  refine List.filter_congr fun dependency _ => ?_
  by_cases h : dependency = type <;> simp [h]

theorem awaited_concat_of_not_dependent {left : List String} {type other : String}
    (hother : other ∈ g.nodes) (h : other ∉ g.otherDependents type) :
    g.awaited (left ++ [type]) other = g.awaited left other := by
  rw [awaited_concat, List.filter_eq_self]
  intro dependency hdep
  obtain ⟨href, hne, _⟩ := mem_awaited.mp hdep
  by_cases heq : dependency = type
  · subst heq
    exact absurd (mem_otherDependents.mpr ⟨hother, href, Ne.symm hne⟩) h
  · simpa using heq

theorem length_awaited_of_dependent {left : List String} {type other : String}
    (hleft : type ∉ left) (h : other ∈ g.otherDependents type) :
    (g.awaited left other).length = (g.awaited (left ++ [type]) other).length + 1 := by
  obtain ⟨_, href, hne⟩ := mem_otherDependents.mp h
  have hmem : type ∈ g.awaited left other := mem_awaited.mpr ⟨href, Ne.symm hne, hleft⟩
  have hnodup : (g.awaited left other).Nodup :=
    ((g.referencesOf other).nodup.filter _).filter _
  have herase : (g.awaited left other).erase type =
      (g.awaited left other).filter (· ≠ type) := by
    rw [hnodup.erase_eq_filter]
    exact List.filter_congr fun dependency _ => (decide_not ..).symm
  rw [awaited_concat, ← herase, List.length_erase_of_mem hmem]
  have hpos := List.length_pos_of_mem hmem
  omega

end DependencyGraph

/-! ### The invariant -/

namespace Departure

/-- The state of the ordering while the types in `untold` have still to be told that
the last type left. -/
structure Invariant (g : DependencyGraph) (untold : List String) (s : Departure) : Prop where
  distinct : (s.left ++ s.ready).Nodup
  inside : ∀ type ∈ s.left ++ s.ready, type ∈ g.nodes
  counted : ∀ type ∈ g.nodes, s.waitingFor type =
    (g.awaited s.left type).length + if type ∈ untold then 1 else 0
  due : ∀ type ∈ g.nodes, type ∈ s.left ++ s.ready ↔
    g.awaited s.left type = [] ∧ type ∉ untold

variable {g : DependencyGraph} {s : Departure}

theorem waitingFor_release (type other : String) :
    (s.release type).waitingFor other =
      if other = type then s.waitingFor type - 1 else s.waitingFor other := by
  unfold release waitingFor
  rw [OrdMap.get?_insert]
  split <;> rfl

theorem left_release (type : String) : (s.release type).left = s.left := rfl

theorem ready_release (type : String) :
    (s.release type).ready =
      if s.waitingFor type - 1 = 0 then s.ready ++ [type] else s.ready := rfl

theorem waitingFor_start {type : String} (hnode : type ∈ g.nodes) :
    g.start.waitingFor type = g.otherDependencyCount type := by
  have hlist : g.start.waiting.toList =
      g.nodes.map fun node => (node, g.otherDependencyCount node) := by
    apply OrdMap.toList_ofList
    simpa [Function.comp_def] using g.nodup_nodes
  have hget : g.start.waiting.get? type = some (g.otherDependencyCount type) := by
    rw [OrdMap.get?_eq_some_iff, hlist]
    exact List.mem_map.mpr ⟨type, hnode, rfl⟩
  simp [waitingFor, hget]

theorem Invariant.start (g : DependencyGraph) : g.start.Invariant g [] := by
  have hawaited (type : String) :
      (g.awaited [] type).length = g.otherDependencyCount type := by
    simp [DependencyGraph.awaited, DependencyGraph.otherDependencyCount]
  refine ⟨?_, ?_, ?_, ?_⟩
  · exact g.nodup_nodes.filter _
  · intro type htype
    exact (List.mem_filter.mp htype).1
  · intro type hnode
    rw [waitingFor_start hnode]
    exact (hawaited type).symm
  · intro type hnode
    rw [← List.length_eq_zero_iff]
    change type ∈ g.nodes.filter _ ↔ (g.awaited [] type).length = 0 ∧ _
    simp [hawaited, hnode]

/-- A type that is told waits for one type less, and no counter below one is lowered. -/
theorem Invariant.release {type : String} {untold : List String}
    (h : s.Invariant g (type :: untold)) (hnode : type ∈ g.nodes) (hnew : type ∉ untold) :
    (s.release type).Invariant g untold := by
  have hcount : s.waitingFor type = (g.awaited s.left type).length + 1 := by
    rw [h.counted type hnode, if_pos List.mem_cons_self]
  have hremaining : s.waitingFor type - 1 = 0 ↔ g.awaited s.left type = [] := by
    rw [hcount, Nat.add_sub_cancel, List.length_eq_zero_iff]
  have habsent : type ∉ s.left ++ s.ready := by
    intro hmem
    exact ((h.due type hnode).mp hmem).2 List.mem_cons_self
  have hmem (other : String) : other ∈ s.left ++ (s.release type).ready ↔
      other ∈ s.left ++ s.ready ∨ other = type ∧ g.awaited s.left type = [] := by
    rw [ready_release, ← hremaining]
    split
    · rename_i hzero
      simp [hzero, or_assoc]
    · rename_i hpos
      simp [hpos]
  refine ⟨?_, ?_, ?_, ?_⟩
  · rw [left_release, ready_release]
    split
    · rw [← List.append_assoc]
      exact OrdSet.nodup_concat h.distinct habsent
    · exact h.distinct
  · intro other hother
    rcases (hmem other).mp hother with hold | ⟨rfl, _⟩
    · exact h.inside other hold
    · exact hnode
  · intro other hother
    rw [waitingFor_release, left_release]
    split
    · -- told, the type is one of the others again, whose counters are right
      rename_i heq
      subst heq
      simp [hcount, hnew]
    · rename_i hne
      rw [h.counted other hother]
      simp [hne]
  · intro other hother
    rw [left_release, hmem, h.due other hother, List.mem_cons, not_or]
    by_cases heq : other = type
    · subst heq
      simp [hnew]
    · simp [heq]

theorem Invariant.releaseAll {untold : List String} (h : s.Invariant g untold)
    (hnodes : ∀ type ∈ untold, type ∈ g.nodes) (hnodup : untold.Nodup) :
    (untold.foldl Departure.release s).Invariant g [] := by
  induction untold generalizing s with
  | nil => exact h
  | cons type rest ih =>
      obtain ⟨hnew, hrest⟩ := List.nodup_cons.mp hnodup
      have hnext := h.release (hnodes type List.mem_cons_self) hnew
      exact ih hnext (fun other hother => hnodes other (List.mem_cons_of_mem _ hother)) hrest

theorem Invariant.notMem_left {type : String} {rest untold : List String}
    (h : s.Invariant g untold) (hready : s.ready = type :: rest) : type ∉ s.left := by
  have hdistinct := h.distinct
  rw [hready] at hdistinct
  exact fun hmem => (List.nodup_append.mp hdistinct).2.2 type hmem type List.mem_cons_self rfl

theorem Invariant.leave {type : String} {rest : List String} (h : s.Invariant g [])
    (hready : s.ready = type :: rest) :
    Invariant g (g.otherDependents type)
      { s with ready := rest, left := s.left ++ [type] } := by
  have hlist : (s.left ++ [type]) ++ rest = s.left ++ s.ready := by simp [hready]
  have hleft := h.notMem_left hready
  refine ⟨?_, ?_, ?_, ?_⟩
  · rw [hlist]
    exact h.distinct
  · rw [hlist]
    exact h.inside
  · intro other hother
    change s.waitingFor other = _
    rw [h.counted other hother]
    by_cases hdep : other ∈ g.otherDependents type
    · simp [hdep, DependencyGraph.length_awaited_of_dependent hleft hdep]
    · simp [hdep, DependencyGraph.awaited_concat_of_not_dependent hother hdep]
  · intro other hother
    rw [hlist, h.due other hother]
    by_cases hdep : other ∈ g.otherDependents type
    · -- it awaited the leaving type until now, so it was neither ready nor gone
      have hlength := DependencyGraph.length_awaited_of_dependent hleft hdep
      have hne : g.awaited s.left other ≠ [] := by
        rw [← List.length_pos_iff]
        omega
      simp [hdep, hne]
    · simp [hdep, DependencyGraph.awaited_concat_of_not_dependent hother hdep]

theorem Invariant.step (h : s.Invariant g []) : (s.step g).Invariant g [] := by
  unfold Departure.step
  split
  · exact h
  · rename_i type rest hready
    apply (h.leave hready).releaseAll
    · intro other hother
      exact (DependencyGraph.mem_otherDependents.mp hother).1
    · exact g.nodup_otherDependents type

theorem Invariant.steps (h : s.Invariant g []) (n : Nat) : (steps g n s).Invariant g [] := by
  induction n generalizing s with
  | zero => exact h
  | succ n ih => exact ih h.step

end Departure

/-! ### The order -/

namespace DependencyGraph

variable {g : DependencyGraph}

theorem finish_invariant (g : DependencyGraph) : g.finish.Invariant g [] :=
  (Departure.Invariant.start g).steps g.size

theorem mem_emissionOrder {type : String} : type ∈ g.emissionOrder ↔ type ∈ g.nodes := by
  have hinside : type ∈ g.finish.left → type ∈ g.nodes := fun hleft =>
    g.finish_invariant.inside type (List.mem_append_left _ hleft)
  simp only [emissionOrder, List.mem_append, List.mem_filter, decide_eq_true_eq]
  tauto

theorem nodup_emissionOrder (g : DependencyGraph) : g.emissionOrder.Nodup := by
  have hleft : g.finish.left.Nodup :=
    g.finish_invariant.distinct.sublist (List.sublist_append_left _ _)
  refine hleft.append (g.nodup_nodes.filter _) ?_
  intro type hmem hrest
  simpa [hmem] using (List.mem_filter.mp hrest).2

end DependencyGraph

namespace Schema

theorem nodup_emissionOrder (schema : Schema) : schema.emissionOrder.Nodup :=
  schema.typeGraph.dependencyGraph.nodup_emissionOrder

theorem mem_emissionOrder {schema : Schema} {type : String} :
    type ∈ schema.emissionOrder ↔ schema.typeGraph.contains type = true := by
  rw [emissionOrder, DependencyGraph.mem_emissionOrder, TypeGraph.nodes_dependencyGraph,
    TypeGraph.contains, OrdMap.contains_iff, TypeGraph.names]

end Schema

end SelectionCompiler
