import SelectionCompiler.Graph.EmissionOrder
import SelectionCompiler.Proofs.Graph.References

/-!
What the emission order depends on. Two dependency graphs agree when the same types have been
discovered in the same order and refer to the same types, each graph listing what a type refers
to in an order of its own. Main statement: graphs whose types refer to each other alike have one
emission order and the same answers to all questions about dependencies, however the fields
behind the references are ordered, named, repeated or mixed with leaves.

The run of the ordering sees the references of a type in two ways only: how many others there
are at the start, and which types depend on the one that leaves, in order of discovery. Neither
tells agreeing graphs apart, so the two runs go through the same states.
-/

namespace SelectionCompiler

namespace DependencyGraph

/-- The same types in one order of discovery, each of them referring to the same types. -/
structure Agrees (g h : DependencyGraph) : Prop where
  nodes_eq : g.nodes = h.nodes
  mem_iff : ∀ type other, other ∈ g.referencesOf type ↔ other ∈ h.referencesOf type

namespace Agrees

variable {g h : DependencyGraph}

/-! ### Questions about dependencies -/

theorem dependencies_eq (hagrees : g.Agrees h) (type : String) :
    g.dependencies type = h.dependencies type := by
  rw [dependencies, dependencies, hagrees.nodes_eq]
  exact List.filter_congr fun other _ => decide_eq_decide.mpr (hagrees.mem_iff type other)

theorem dependents_eq (hagrees : g.Agrees h) (type : String) :
    g.dependents type = h.dependents type := by
  rw [dependents_eq_filter, dependents_eq_filter, hagrees.nodes_eq]
  exact List.filter_congr fun other _ => decide_eq_decide.mpr (hagrees.mem_iff other type)

theorem hasSelfLoop_eq (hagrees : g.Agrees h) (type : String) :
    g.hasSelfLoop type = h.hasSelfLoop type :=
  decide_eq_decide.mpr (hagrees.mem_iff type type)

theorem size_eq (hagrees : g.Agrees h) : g.size = h.size := by
  have hlength := congrArg List.length hagrees.nodes_eq
  rwa [nodes, nodes, OrdMap.keys, OrdMap.keys, List.length_map, List.length_map] at hlength

theorem edgeCount_eq (hagrees : g.Agrees h) : g.edgeCount = h.edgeCount := by
  rw [← length_pairs, ← length_pairs]
  refine List.Perm.length_eq ?_
  rw [List.perm_ext_iff_of_nodup g.nodup_pairs h.nodup_pairs]
  rintro ⟨type, other⟩
  rw [mem_pairs, mem_pairs, hagrees.mem_iff]

/-! ### The run of the ordering -/

theorem otherDependents_eq (hagrees : g.Agrees h) (type : String) :
    g.otherDependents type = h.otherDependents type := by
  rw [otherDependents, otherDependents, hagrees.dependents_eq]

/-- The references are counted, so their order does not matter. -/
theorem otherDependencyCount_eq (hagrees : g.Agrees h) (type : String) :
    g.otherDependencyCount type = h.otherDependencyCount type := by
  refine List.Perm.length_eq ?_
  rw [List.perm_ext_iff_of_nodup ((g.referencesOf type).nodup.filter _)
    ((h.referencesOf type).nodup.filter _)]
  intro other
  simp only [List.mem_filter, OrdSet.mem_toList, hagrees.mem_iff]

theorem start_eq (hagrees : g.Agrees h) : g.start = h.start := by
  simp only [start, hagrees.nodes_eq, hagrees.otherDependencyCount_eq]

theorem step_eq (hagrees : g.Agrees h) (s : Departure) : s.step g = s.step h := by
  simp only [Departure.step, hagrees.otherDependents_eq]

theorem steps_eq (hagrees : g.Agrees h) (n : Nat) (s : Departure) :
    Departure.steps g n s = Departure.steps h n s := by
  induction n generalizing s with
  | zero => rfl
  | succ n ih => rw [Departure.steps, Departure.steps, hagrees.step_eq, ih]

theorem emissionOrder_eq (hagrees : g.Agrees h) : g.emissionOrder = h.emissionOrder := by
  have hfinish : g.finish = h.finish := by
    rw [finish, finish, hagrees.start_eq, hagrees.size_eq, hagrees.steps_eq]
  rw [emissionOrder, emissionOrder, hfinish, hagrees.nodes_eq]

end Agrees

end DependencyGraph

namespace TypeGraph

instance (g : TypeGraph) (type other : String) : Decidable (g.Refers type other) :=
  inferInstanceAs (Decidable (_ ∧ _ ∧ _))

variable {g h : TypeGraph}

theorem agrees_dependencyGraph (hnames : g.names = h.names)
    (hrefers : ∀ type ∈ g.names, ∀ other ∈ g.names, g.Refers type other ↔ h.Refers type other) :
    g.dependencyGraph.Agrees h.dependencyGraph where
  nodes_eq := by rw [nodes_dependencyGraph, nodes_dependencyGraph, hnames]
  mem_iff type other := by
    rw [← refers_iff, ← refers_iff]
    constructor
    · exact fun hg => (hrefers type hg.1 other hg.2.1).mp hg
    · exact fun hh => (hrefers type (hnames ▸ hh.1) other (hnames ▸ hh.2.1)).mpr hh

/-- Graphs with the same types in one order of discovery, in which the same types refer to each
other, have one emission order and the same dependencies. -/
theorem emissionOrder_eq_of_refers_iff (hnames : g.names = h.names)
    (hrefers : ∀ type ∈ g.names, ∀ other ∈ g.names, g.Refers type other ↔ h.Refers type other) :
    g.dependencyGraph.emissionOrder = h.dependencyGraph.emissionOrder ∧
      (∀ type, g.dependencyGraph.dependents type = h.dependencyGraph.dependents type ∧
        g.dependencyGraph.dependencies type = h.dependencyGraph.dependencies type ∧
        g.dependencyGraph.hasSelfLoop type = h.dependencyGraph.hasSelfLoop type) ∧
      g.dependencyGraph.size = h.dependencyGraph.size ∧
      g.dependencyGraph.edgeCount = h.dependencyGraph.edgeCount := by
  have hagrees := agrees_dependencyGraph hnames hrefers
  refine ⟨hagrees.emissionOrder_eq, fun type => ?_, hagrees.size_eq, hagrees.edgeCount_eq⟩
  exact ⟨hagrees.dependents_eq type, hagrees.dependencies_eq type, hagrees.hasSelfLoop_eq type⟩

/-- A playlist waits for its tracks and for artists, who refer to each other in turn; a track
refers to tracks. -/
def playlist : TypeGraph :=
  let leadsTo (target : String) : FieldTarget := ⟨target, target, .composite⟩
  ⟨.ofList [("Playlist", [leadsTo "Track", leadsTo "Label"]),
    ("Track", [leadsTo "Track", leadsTo "Label"]), ("Artist", [leadsTo "Band", leadsTo "Track"]),
    ("Band", [leadsTo "Artist"]), ("Label", [])]⟩

/-- The same references behind other fields: in another order, some of them twice, between
leaves, and next to a field that leads out of the graph. -/
def crowdedPlaylist : TypeGraph :=
  let leadsTo (name target : String) : FieldTarget := ⟨name, target, .composite⟩
  ⟨.ofList [("Playlist", [leadsTo "by" "Label", leadsTo "first" "Track", leadsTo "last" "Track"]),
    ("Track", [⟨"title", "String", .leaf⟩, leadsTo "by" "Label", leadsTo "next" "Track"]),
    ("Artist", [leadsTo "hit" "Track", leadsTo "in" "Band", leadsTo "was" "Band"]),
    ("Band", [⟨"name", "Label", .leaf⟩, leadsTo "of" "Artist", leadsTo "at" "Venue"]),
    ("Label", [⟨"name", "String", .leaf⟩])]⟩

theorem emissionOrder_eq_of_refers_iff_playlist :
    playlist.names = crowdedPlaylist.names ∧
      (∀ type ∈ playlist.names, ∀ other ∈ playlist.names,
        playlist.Refers type other ↔ crowdedPlaylist.Refers type other) ∧
      playlist.dependencyGraph ≠ crowdedPlaylist.dependencyGraph ∧
      playlist.dependencyGraph.emissionOrder = ["Label", "Track", "Playlist", "Artist", "Band"] ∧
      crowdedPlaylist.dependencyGraph.emissionOrder =
        ["Label", "Track", "Playlist", "Artist", "Band"] := by
  have hnames : playlist.names = crowdedPlaylist.names := by
    decide
  have hrefers : ∀ type ∈ playlist.names, ∀ other ∈ playlist.names,
      playlist.Refers type other ↔ crowdedPlaylist.Refers type other := by
    decide
  have horder : playlist.dependencyGraph.emissionOrder =
      ["Label", "Track", "Playlist", "Artist", "Band"] := by
    decide
  obtain ⟨heq, _⟩ := emissionOrder_eq_of_refers_iff hnames hrefers
  exact ⟨hnames, hrefers, by decide, horder, heq ▸ horder⟩

end TypeGraph

end SelectionCompiler
