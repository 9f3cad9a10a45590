import SelectionCompiler.Proofs.Graph.DependencyGraph
import Mathlib.Data.List.Sort
import Mathlib.Data.Set.Card

/-!
The dependency graph as a relation. A type refers to another when one of its composite fields
leads there and both are types of the graph. Main statement: the dependency graph holds exactly
this relation, each pair of types once, and lists it in both directions in order of discovery.

The lists depend on the relation alone. Whoever goes through the neighbours of a type in some
order of their own, and through some of them twice, has the same list once it is sorted by
discovery and freed of repetitions.
-/

namespace SelectionCompiler

/-! ### Lists in order of discovery -/

/-- The types of a listing in the order of `names`, each of them once. -/
def sortBy (names listing : List String) : List String :=
  (listing.mergeSort fun type other => names.idxOf type ≤ names.idxOf other).dedup

/-- Each type stands before those that come after it in `names`. -/
def SortedBy (names types : List String) : Prop :=
  types.Pairwise fun type other => names.idxOf type < names.idxOf other

variable {names types others : List String}

theorem SortedBy.of_sublist (hnames : names.Nodup) (h : types.Sublist names) :
    SortedBy names types :=
  (pairwise_idxOf_lt hnames).sublist h

theorem SortedBy.eq_of_mem_iff (htypes : SortedBy names types) (hothers : SortedBy names others)
    (h : ∀ type, type ∈ types ↔ type ∈ others) : types = others := by
  let before (type other : String) : Prop := names.idxOf type < names.idxOf other
  have : Std.Irrefl before := ⟨fun type => Nat.lt_irrefl (names.idxOf type)⟩
  have : Std.Antisymm before := ⟨fun _ _ hlt hgt => absurd hlt (Nat.lt_asymm hgt)⟩
  exact List.Pairwise.eq_of_mem_iff (r := before) htypes hothers h

theorem mem_sortBy {type : String} : type ∈ sortBy names types ↔ type ∈ types := by
  rw [sortBy, List.mem_dedup, List.mem_mergeSort]

theorem sortedBy_sortBy (h : ∀ type ∈ types, type ∈ names) :
    SortedBy names (sortBy names types) := by
  have hsorted : (types.mergeSort fun type other => names.idxOf type ≤ names.idxOf other).Pairwise
      fun type other => decide (names.idxOf type ≤ names.idxOf other) = true :=
    List.pairwise_mergeSort (by simpa using fun _ _ _ => Nat.le_trans)
      (by simpa using fun _ _ => Nat.le_total _ _) types
  have hdistinct : (sortBy names types).Pairwise (· ≠ ·) := List.nodup_dedup _
  refine ((hsorted.sublist (List.dedup_sublist _)).and hdistinct).imp_of_mem ?_
  intro type other htype _ hpair
  have hplaces := mt (List.idxOf_inj (h type (mem_sortBy.mp htype))).mp hpair.2
  exact Nat.lt_of_le_of_ne (of_decide_eq_true hpair.1) hplaces

/-! ### References -/

namespace DependencyGraph

variable {g : DependencyGraph} {type other : String}

theorem mem_nodes_of_mem_referencesOf (h : other ∈ g.referencesOf type) : type ∈ g.nodes := by
  by_contra hnone
  rw [referencesOf, OrdMap.get?_eq_none_iff.mpr hnone] at h
  exact List.not_mem_nil h

theorem referencesOf_of_mem {set : OrdSet} (h : (type, set) ∈ g.references.toList) :
    g.referencesOf type = set := by
  rw [referencesOf, OrdMap.get?_eq_some_iff.mpr h, Option.getD_some]

theorem dependents_eq_filter (g : DependencyGraph) (type : String) :
    g.dependents type = g.nodes.filter (type ∈ g.referencesOf ·) := by
  rw [nodes, OrdMap.keys, List.filter_map, dependents]
  congr 1
  refine List.filter_congr fun entry hentry => ?_
  rw [Function.comp_apply, referencesOf_of_mem hentry]

/-- The pairs of a type and a type that it depends on. -/
def pairs (g : DependencyGraph) : List (String × String) :=
  g.references.toList.flatMap fun entry => entry.2.toList.map (entry.1, ·)

theorem mem_pairs : (type, other) ∈ g.pairs ↔ other ∈ g.referencesOf type := by
  simp only [pairs, List.mem_flatMap, List.mem_map, Prod.mk.injEq]
  constructor
  · rintro ⟨⟨key, set⟩, hentry, found, hfound, rfl, rfl⟩
    rwa [referencesOf_of_mem hentry]
  · intro h
    obtain ⟨set, hget⟩ := OrdMap.mem_keys_iff.mp (mem_nodes_of_mem_referencesOf h)
    have hentry := OrdMap.get?_eq_some_iff.mp hget
    rw [referencesOf_of_mem hentry] at h
    exact ⟨(type, set), hentry, other, h, rfl, rfl⟩

theorem nodup_pairs (g : DependencyGraph) : g.pairs.Nodup := by
  refine List.nodup_flatMap.mpr ⟨fun entry _ => ?_, ?_⟩
  · exact entry.2.nodup.map fun _ _ heq => (Prod.mk.inj heq).2
  · -- pairs of different entries differ in the type that refers
    refine (List.pairwise_map.mp g.references.nodup_keys).imp fun {first second} hne => ?_
    intro pair hfirst hsecond
    obtain ⟨_, _, rfl⟩ := List.mem_map.mp hfirst
    obtain ⟨_, _, heq⟩ := List.mem_map.mp hsecond
    exact hne (Prod.mk.inj heq).1.symm

theorem length_pairs (g : DependencyGraph) : g.pairs.length = g.edgeCount := by
  simp [pairs, edgeCount, OrdMap.values, List.length_flatMap, Function.comp_def]

theorem encard_references (g : DependencyGraph) :
    {pair : String × String | pair.2 ∈ g.referencesOf pair.1}.encard = g.edgeCount := by
  have hset : {pair : String × String | pair.2 ∈ g.referencesOf pair.1} = g.pairs.toFinset := by
    ext pair
    rw [Set.mem_ofPred_eq, ← mem_pairs, Finset.mem_coe, List.mem_toFinset]
  rw [hset, Set.encard_coe_eq_coe_finsetCard, List.toFinset_card_of_nodup g.nodup_pairs,
    length_pairs]

/-- The graph says of the types in `names` what the relation says, and nothing else. -/
structure Represents (g : DependencyGraph) (names : List String)
    (refers : String → String → Prop) : Prop where
  mem_dependencies : ∀ type other, other ∈ g.dependencies type ↔ refers type other
  mem_dependents : ∀ type other, type ∈ g.dependents other ↔ refers type other
  sorted : ∀ type, SortedBy names (g.dependencies type) ∧ SortedBy names (g.dependents type)
  unknown : ∀ type, type ∉ names → g.dependencies type = [] ∧ g.dependents type = []
  selfLoop : ∀ type, g.hasSelfLoop type = true ↔ type ∈ g.dependents type
  size : g.size = names.length
  edgeCount : {pair : String × String | refers pair.1 pair.2}.encard = g.edgeCount
  dependencies_eq : ∀ type listing, (∀ other, other ∈ listing ↔ refers type other) →
    g.dependencies type = sortBy names listing
  dependents_eq : ∀ type listing, (∀ other, other ∈ listing ↔ refers other type) →
    g.dependents type = sortBy names listing

end DependencyGraph

namespace TypeGraph

/-- A composite field of `type` leads to `other`, and both are types of the graph. -/
def Refers (g : TypeGraph) (type other : String) : Prop :=
  type ∈ g.names ∧ other ∈ g.names ∧
    ∃ field ∈ g.fields type, field.isComposite = true ∧ field.target = other

variable {g : TypeGraph} {type other : String}

theorem refers_iff : g.Refers type other ↔ other ∈ g.dependencyGraph.referencesOf type := by
  rw [mem_referencesOf, contains, OrdMap.contains_iff]
  constructor
  · exact And.right
  · rintro ⟨hother, field, hfield, hleads⟩
    exact ⟨mem_names_of_mem_fields hfield, hother, field, hfield, hleads⟩

theorem mem_dependencies :
    other ∈ g.dependencyGraph.dependencies type ↔ g.Refers type other := by
  rw [DependencyGraph.dependencies, List.mem_filter, decide_eq_true_eq, ← refers_iff,
    nodes_dependencyGraph]
  exact and_iff_right_of_imp fun hrefers => hrefers.2.1

theorem mem_dependents : type ∈ g.dependencyGraph.dependents other ↔ g.Refers type other := by
  rw [DependencyGraph.mem_dependents, ← refers_iff, nodes_dependencyGraph]
  exact and_iff_right_of_imp And.left

theorem sortedBy_dependencies (g : TypeGraph) (type : String) :
    SortedBy g.names (g.dependencyGraph.dependencies type) := by
  refine .of_sublist g.types.nodup_keys ?_
  rw [← nodes_dependencyGraph]
  exact List.filter_sublist

theorem sortedBy_dependents (g : TypeGraph) (type : String) :
    SortedBy g.names (g.dependencyGraph.dependents type) := by
  refine .of_sublist g.types.nodup_keys ?_
  rw [← nodes_dependencyGraph, DependencyGraph.dependents_eq_filter]
  exact List.filter_sublist

/-- The dependency graph of every type graph is its relation of reference. -/
theorem dependencyGraph_represents (g : TypeGraph) :
    g.dependencyGraph.Represents g.names g.Refers where
  mem_dependencies _ _ := mem_dependencies
  mem_dependents _ _ := mem_dependents
  sorted type := ⟨g.sortedBy_dependencies type, g.sortedBy_dependents type⟩
  unknown type hunknown := by
    simp only [List.eq_nil_iff_forall_not_mem, mem_dependencies, mem_dependents]
    exact ⟨fun _ hrefers => hunknown hrefers.1, fun _ hrefers => hunknown hrefers.2.1⟩
  selfLoop type := by
    rw [DependencyGraph.hasSelfLoop, decide_eq_true_eq, mem_dependents, refers_iff]
  size := by
    rw [← nodes_dependencyGraph]
    exact (List.length_map _).symm
  edgeCount := by
    simp only [refers_iff]
    exact g.dependencyGraph.encard_references
  dependencies_eq type listing hlisting := by
    have hnames : ∀ other ∈ listing, other ∈ g.names := fun other hother =>
      ((hlisting other).mp hother).2.1
    refine (g.sortedBy_dependencies type).eq_of_mem_iff (sortedBy_sortBy hnames) fun other => ?_
    rw [mem_dependencies, mem_sortBy, hlisting]
  dependents_eq type listing hlisting := by
    have hnames : ∀ other ∈ listing, other ∈ g.names := fun other hother =>
      ((hlisting other).mp hother).1
    refine (g.sortedBy_dependents type).eq_of_mem_iff (sortedBy_sortBy hnames) fun other => ?_
    rw [mem_dependents, mem_sortBy, hlisting]

end TypeGraph

end SelectionCompiler
