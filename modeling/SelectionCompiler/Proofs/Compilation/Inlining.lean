import SelectionCompiler.Proofs.Compilation.Closed
import SelectionCompiler.Proofs.Selection.Resolution

/-!
Resolving references and writing fields out in full. Both recursions are bounded
by a depth, one through the arena and one through the type graph. Main statement:
on a compilation they give the same selection at every depth, whatever cycles
the schema has.
-/

namespace SelectionCompiler

namespace TypeGraph

variable {g : TypeGraph}

/-- At every depth a composite field is opened while more than one level is left. -/
theorem inlined_eq (g : TypeGraph) (depth : Nat) (type : String) :
    g.inlined depth type = (g.fields type).map fun f =>
      if f.isComposite = true ∧ 1 < depth then .nested f.name (g.inlined (depth - 1) f.target)
      else .field f.name := by
  cases depth with
  | zero => simp [inlined]
  | succ depth => simp [inlined]

/-- The arena registers the types of the graph, each with the selection of all its
fields. -/
def StoredIn (g : TypeGraph) (a : Arena) : Prop :=
  ∀ type, g.contains type = true →
    ∃ m, a.get? type = some m ∧ m.selection = g.referring type

/-- The induction is on the depth and runs for all types at once, since a field may
lead to any type, its own included. -/
theorem resolve_referring {a : Arena} (hclosed : g.Closed) (hstored : g.StoredIn a)
    (depth : Nat) (type : String) :
    a.resolve depth (g.referring type) = g.inlined depth type := by
  induction depth generalizing type with
  | zero =>
      rw [Arena.resolve, Element.cutAll_eq_map, referring, inlined, List.map_map]
      refine List.map_congr_left fun f _ => ?_
      -- cut or written out, nothing is left of a field but its name
      by_cases h : f.isComposite = true <;> simp [h, Element.cut]
  | succ depth ih =>
      rw [Arena.resolve, referring, inlined, List.map_map]
      refine List.map_congr_left fun f hf => ?_
      by_cases h : f.isComposite = true
      · obtain ⟨m, hget, hselection⟩ := hstored f.target ((hclosed type f hf).mp h)
        have hchildren : a.resolve depth m.selection = g.inlined depth f.target := by
          rw [hselection, ih]
        by_cases hdepth : 0 < depth <;> simp [h, hget, hchildren, hdepth]
      · simp [h]

end TypeGraph

namespace Schema

theorem storedIn_compile (schema : Schema) (config : Config) :
    schema.typeGraph.StoredIn (schema.compile config).submodels := by
  intro type hgraph
  refine ⟨schema.typeGraph.submodel type config.submodelDepth, ?_, rfl⟩
  rw [get?_submodels_compile, if_pos hgraph]

theorem resolve_compile_referring {schema : Schema} (h : schema.TypesKeyed) (config : Config)
    (type : String) (depth : Nat) :
    (schema.compile config).resolve (schema.typeGraph.referring type) depth =
      schema.typeGraph.inlined depth type :=
  TypeGraph.resolve_referring (typeGraph_closed h) (storedIn_compile schema config) depth type

/-- Resolved to any depth, the submodel of a type and the selection at a root are what
comes of writing the fields out in full to that depth. -/
theorem resolve_compile_eq_inlined (schema : Schema) (config : Config)
    (h : schema.TypesKeyed) (depth : Nat) :
    (∀ name type, schema.Selects name type →
      ∃ m, (schema.compile config).submodels.get? name = some m ∧
        (schema.compile config).resolve m.selection depth =
          schema.typeGraph.selection name depth false) ∧
    ∀ root ∈ (schema.compile config).roots.values,
      (schema.compile config).resolve root.selection depth =
        schema.typeGraph.selection root.returnType depth false := by
  constructor
  · intro name type hsel
    have hgraph := (contains_typeGraph_iff h).mpr ⟨type, hsel⟩
    obtain ⟨m, hget, hselection⟩ := storedIn_compile schema config name hgraph
    refine ⟨m, hget, ?_⟩
    rw [hselection]
    exact resolve_compile_referring h config name depth
  · intro root hroot
    obtain ⟨_, _, reference, _, rfl⟩ := mem_roots_compile hroot
    exact resolve_compile_referring h config reference.target depth

theorem resolve_compile_eq_inlined_sample :
    sample.TypesKeyed ∧ ∃ m, (sample.compile .standard).submodels.get? "User" = some m ∧
      (sample.compile .standard).resolve m.selection 3 =
        sample.typeGraph.selection "User" 3 false := by
  have hkeyed : sample.TypesKeyed := by decide
  obtain ⟨type, hsel⟩ : ∃ type, sample.Selects "User" type := by
    rw [← contains_typeGraph_iff hkeyed]
    decide
  exact ⟨hkeyed, (resolve_compile_eq_inlined sample .standard hkeyed 3).1 "User" type hsel⟩

end Schema

end SelectionCompiler
