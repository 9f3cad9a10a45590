import SelectionCompiler.Graph.DependencyGraph
import SelectionCompiler.Proofs.Graph.TypeGraph

/-!
Dependencies and dependents. One type is among the dependents of another exactly
when it refers to it. In the dependency graph of a type graph the references of a
type are the types of the graph to which its composite fields lead.
-/

namespace SelectionCompiler

theorem pairwise_idxOf_lt {types : List String} (h : types.Nodup) :
    types.Pairwise fun type other => types.idxOf type < types.idxOf other := by
  rw [List.pairwise_iff_getElem]
  intro i j hi hj hlt
  rwa [h.idxOf_getElem i hi, h.idxOf_getElem j hj]

namespace DependencyGraph

variable {g : DependencyGraph}

theorem nodup_nodes (g : DependencyGraph) : g.nodes.Nodup := g.references.nodup_keys

theorem mem_dependents {type other : String} :
    other ∈ g.dependents type ↔ other ∈ g.nodes ∧ type ∈ g.referencesOf other := by
  simp only [dependents, List.mem_map, List.mem_filter, decide_eq_true_eq]
  constructor
  · rintro ⟨⟨key, set⟩, ⟨hmem, htype⟩, rfl⟩
    have hget : g.references.get? key = some set := OrdMap.get?_eq_some_iff.mpr hmem
    refine ⟨OrdMap.mem_keys_iff.mpr ⟨set, hget⟩, ?_⟩
    simpa [referencesOf, hget] using htype
  · rintro ⟨hnode, htype⟩
    obtain ⟨set, hget⟩ := OrdMap.mem_keys_iff.mp hnode
    refine ⟨(other, set), ⟨OrdMap.get?_eq_some_iff.mp hget, ?_⟩, rfl⟩
    simpa [referencesOf, hget] using htype

theorem nodup_dependents (g : DependencyGraph) (type : String) : (g.dependents type).Nodup := by
  have hsub : (g.dependents type).Sublist (g.references.toList.map Prod.fst) :=
    List.filter_sublist.map Prod.fst
  exact g.nodup_nodes.sublist hsub

end DependencyGraph

namespace TypeGraph

variable {g : TypeGraph}

theorem toList_references (g : TypeGraph) :
    g.dependencyGraph.references.toList =
      g.types.toList.map fun entry => (entry.1, g.references entry.2) := by
  apply OrdMap.toList_ofList
  simpa [Function.comp_def] using g.types.nodup_keys

theorem nodes_dependencyGraph (g : TypeGraph) : g.dependencyGraph.nodes = g.names := by
  simp [DependencyGraph.nodes, names, OrdMap.keys, toList_references]

theorem mem_references {fields : List FieldTarget} {other : String} :
    other ∈ g.references fields ↔
      g.contains other = true ∧
        ∃ field ∈ fields, field.isComposite = true ∧ field.target = other := by
  rw [references, OrdSet.mem_ofList, List.mem_filter, and_comm]
  simp [and_assoc]

theorem mem_referencesOf {type other : String} :
    other ∈ g.dependencyGraph.referencesOf type ↔
      g.contains other = true ∧
        ∃ field ∈ g.fields type, field.isComposite = true ∧ field.target = other := by
  rw [← mem_references]
  cases hfields : g.fields? type with
  | none =>
      have hget : g.dependencyGraph.references.get? type = none := by
        rw [OrdMap.get?_eq_none_iff]
        change type ∉ g.dependencyGraph.nodes
        rw [nodes_dependencyGraph]
        exact OrdMap.get?_eq_none_iff.mp hfields
      rw [DependencyGraph.referencesOf, hget, fields, hfields]
      rfl
  | some found =>
      have hget : g.dependencyGraph.references.get? type = some (g.references found) := by
        rw [OrdMap.get?_eq_some_iff, toList_references]
        exact List.mem_map.mpr ⟨(type, found), OrdMap.get?_eq_some_iff.mp hfields, rfl⟩
      rw [DependencyGraph.referencesOf, hget, fields, hfields]
      rfl

end TypeGraph

end SelectionCompiler
