import SelectionCompiler.Graph.TypeGraph

/-!
Dependencies between the composite types of a graph. A type depends on another
when one of its fields leads there, however many fields do; a type may depend on
itself. Types and dependencies are listed in order of discovery.
-/

namespace SelectionCompiler

/-- For each type, in order of discovery, the types of the graph that its fields
lead to. -/
structure DependencyGraph where
  references : OrdMap OrdSet
deriving DecidableEq, Inhabited

namespace TypeGraph

/-- The types of the graph to which fields of the list lead. -/
def references (g : TypeGraph) (fields : List FieldTarget) : OrdSet :=
  .ofList (((fields.filter FieldTarget.isComposite).map (·.target)).filter g.contains)

def dependencyGraph (g : TypeGraph) : DependencyGraph :=
  ⟨.ofList (g.types.toList.map fun entry => (entry.1, g.references entry.2))⟩

end TypeGraph

namespace DependencyGraph

/-- The types in order of discovery. -/
def nodes (g : DependencyGraph) : List String := g.references.keys

def size (g : DependencyGraph) : Nat := g.references.size

/-- How many pairs of a type and a type that it depends on there are. -/
def edgeCount (g : DependencyGraph) : Nat :=
  (g.references.values.flatMap (·.toList)).length

/-- The types that a type depends on; a name outside the graph depends on nothing. -/
def referencesOf (g : DependencyGraph) (type : String) : OrdSet :=
  (g.references.get? type).getD ∅

/-- The types that `type` depends on, in order of discovery. -/
def dependencies (g : DependencyGraph) (type : String) : List String :=
  let set := g.referencesOf type
  g.nodes.filter (· ∈ set)

/-- The types that depend on `type`, in order of discovery. -/
def dependents (g : DependencyGraph) (type : String) : List String :=
  (g.references.toList.filter fun entry => type ∈ entry.2).map Prod.fst

def hasSelfLoop (g : DependencyGraph) (type : String) : Bool := type ∈ g.referencesOf type

end DependencyGraph

end SelectionCompiler
