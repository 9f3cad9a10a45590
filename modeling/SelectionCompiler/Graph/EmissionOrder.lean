import SelectionCompiler.Graph.DependencyGraph

/-!
The emission order: every type after the types it depends on, as far as cycles
allow. Each type waits for as many types as it depends on, itself not counted.
Types that wait for none are ready and leave in the order in which they became
so; a type that leaves lets the types that depend on it wait for one less. What
never becomes ready follows at the end in order of discovery.
-/

namespace SelectionCompiler

/-- How far the ordering has come: for how many types each type still waits, the
ready types, first to leave first, and the types that have left, in order. -/
structure Departure where
  waiting : OrdMap Nat
  ready : List String
  left : List String

namespace DependencyGraph

/-- The types other than itself that depend on a type, in order of discovery. -/
def otherDependents (g : DependencyGraph) (type : String) : List String :=
  (g.dependents type).filter (· ≠ type)

/-- For how many types a type waits at the start. -/
def otherDependencyCount (g : DependencyGraph) (type : String) : Nat :=
  ((g.referencesOf type).toList.filter (· ≠ type)).length

def start (g : DependencyGraph) : Departure where
  waiting := .ofList (g.nodes.map fun type => (type, g.otherDependencyCount type))
  ready := g.nodes.filter fun type => g.otherDependencyCount type = 0
  left := []

end DependencyGraph

namespace Departure

def waitingFor (s : Departure) (type : String) : Nat := (s.waiting.get? type).getD 0

/-- Lets a type wait for one type less, and makes it ready when none remains. -/
def release (s : Departure) (type : String) : Departure :=
  let remaining := s.waitingFor type - 1
  { s with
    waiting := s.waiting.insert type remaining
    ready := if remaining = 0 then s.ready ++ [type] else s.ready }

/-- Lets the first ready type leave. -/
def step (g : DependencyGraph) (s : Departure) : Departure :=
  match s.ready with
  | [] => s
  | type :: rest =>
      (g.otherDependents type).foldl release
        { s with ready := rest, left := s.left ++ [type] }

def steps (g : DependencyGraph) : Nat → Departure → Departure
  | 0, s => s
  | n + 1, s => steps g n (s.step g)

end Departure

namespace DependencyGraph

/-- The state in which no type is ready any more: every type leaves at most once, so
there are no more steps than types. -/
def finish (g : DependencyGraph) : Departure := g.start.steps g g.size

/-- Every type of the graph, those on or behind a cycle at the end. -/
def emissionOrder (g : DependencyGraph) : List String :=
  let left := g.finish.left
  left ++ g.nodes.filter (· ∉ left)

end DependencyGraph

/-- The emission order of the composite types of a schema. -/
def Schema.emissionOrder (schema : Schema) : List String :=
  schema.typeGraph.dependencyGraph.emissionOrder

end SelectionCompiler
