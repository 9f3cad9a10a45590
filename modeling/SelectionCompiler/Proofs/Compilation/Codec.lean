import SelectionCompiler.Proofs.Compilation.Closed
import SelectionCompiler.Proofs.Selection.Codec

/-!
The JSON form of a compilation gives back the compilation, whatever its parts are, as long as
depths are numbers that a typed value can hold. What is compiled from a schema has no nested
elements, so its JSON text is never nested too deeply to be read.
-/

namespace SelectionCompiler

open Json

namespace Arena

variable {a : Arena} {n : Nat}

theorem ofJson?_toJson (h : ∀ m ∈ a.submodels, m.depth < natBound) : ofJson? a.toJson = some a := by
  have hentries : OrdMap.ofJson? Submodel.ofJson? (a.entries.toJson Submodel.toJson) =
      some a.entries := OrdMap.ofJson?_toJson fun m hm => Submodel.ofJson?_toJson (h m hm)
  have hmember : a.toJson.member? "entries" = some (a.entries.toJson Submodel.toJson) := by
    simp [toJson]
  simp only [ofJson?, required_of_member? hmember, hentries, Option.bind_eq_bind, Option.bind_some]
  rfl

theorem faithful_toJson (h : ∀ m ∈ a.submodels, m.depth < natBound) : a.toJson.Faithful := by
  have hentries : (a.entries.toJson Submodel.toJson).Faithful :=
    OrdMap.faithful_toJson fun m hm => Submodel.faithful_toJson (h m hm)
  exact .obj (by simp) (by simpa using hentries)

theorem nesting_toJson_le (h : ∀ m ∈ a.submodels, Element.heightAll m.selection ≤ n) :
    a.toJson.nesting ≤ 3 * n + 6 := by
  have hentries : (a.entries.toJson Submodel.toJson).nesting ≤ 3 * n + 5 :=
    OrdMap.nesting_toJson_le fun m hm => Submodel.nesting_toJson_le (h m hm)
  exact nesting_obj_le (by simpa using hentries)

end Arena

namespace Compilation

/-- Whether the depths are natural numbers that a typed value can hold. -/
structure DepthsFit (c : Compilation) : Prop where
  submodels : ∀ m ∈ c.submodels.submodels, m.depth < natBound
  roots : ∀ r ∈ c.roots.values, r.depth < natBound

variable {c : Compilation} {n : Nat}

theorem ofJson?_toJson (h : c.DepthsFit) : ofJson? c.toJson = some c := by
  have hroots : OrdMap.ofJson? Root.ofJson? (c.roots.toJson Root.toJson) = some c.roots :=
    OrdMap.ofJson?_toJson fun r hr => Root.ofJson?_toJson (h.roots r hr)
  have horder : c.toJson.member? "order" = some (.ofStrings c.order) := by simp [toJson]
  have hsubmodels : c.toJson.member? "submodels" = some c.submodels.toJson := by simp [toJson]
  have hmember : c.toJson.member? "roots" = some (c.roots.toJson Root.toJson) := by simp [toJson]
  simp only [ofJson?, required_of_member? horder, required_of_member? hsubmodels,
    required_of_member? hmember, toList?_ofStrings, Arena.ofJson?_toJson h.submodels, hroots,
    Option.bind_eq_bind, Option.bind_some]
  rfl

theorem faithful_toJson (h : c.DepthsFit) : c.toJson.Faithful := by
  have hroots : (c.roots.toJson Root.toJson).Faithful :=
    OrdMap.faithful_toJson fun r hr => Root.faithful_toJson (h.roots r hr)
  exact .obj (by simp)
    (by simp [Faithful.ofStrings, Arena.faithful_toJson h.submodels, hroots])

/-- Whatever is nested in its selections adds three containers a level. -/
theorem nesting_toJson_le
    (hsubmodels : ∀ m ∈ c.submodels.submodels, Element.heightAll m.selection ≤ n)
    (hroots : ∀ r ∈ c.roots.values, Element.heightAll r.selection ≤ n) :
    c.toJson.nesting ≤ 3 * n + 7 := by
  have hentries : (c.roots.toJson Root.toJson).nesting ≤ 3 * n + 5 :=
    OrdMap.nesting_toJson_le fun r hr => Root.nesting_toJson_le (hroots r hr)
  have horder := nesting_ofStrings_le c.order
  have harena := Arena.nesting_toJson_le hsubmodels
  refine nesting_obj_le (n := 3 * n + 6) ?_
  simp
  omega

theorem parse?_pretty (h : c.DepthsFit) (hnesting : c.toJson.nesting ≤ maxNesting) :
    (parse? c.toJson.pretty).bind ofJson? = some c := by
  rw [(faithful_toJson h).parse?_pretty hnesting, Option.bind_some, ofJson?_toJson h]

end Compilation

/-! ### Compiled schemas -/

namespace TypeGraph

theorem heightAll_referring (g : TypeGraph) (type : String) :
    Element.heightAll (g.referring type) = 0 := by
  rw [referring]
  induction g.fields type with
  | nil => rfl
  | cons f rest ih =>
      rw [List.map_cons, Element.heightAll, ih]
      split <;> rfl

end TypeGraph

namespace Schema

theorem depthsFit_compile {schema : Schema} {config : Config}
    (hsubmodels : config.submodelDepth < natBound) (hroots : config.rootDepth < natBound) :
    (schema.compile config).DepthsFit where
  submodels := by
    intro m hm
    obtain ⟨name, hget⟩ := OrdMap.mem_values_iff.mp hm
    obtain ⟨-, rfl⟩ := of_mem_submodels_compile (OrdMap.get?_eq_some_iff.mp hget)
    exact hsubmodels
  roots := by
    intro r hr
    obtain ⟨_, _, _, _, rfl⟩ := mem_roots_compile hr
    exact hroots

/-- A compiled schema is written with seven containers inside one another at most. -/
theorem nesting_compile_le (schema : Schema) (config : Config) :
    (schema.compile config).toJson.nesting ≤ 7 := by
  refine Compilation.nesting_toJson_le (n := 0) ?_ ?_
  · intro m hm
    obtain ⟨name, hget⟩ := OrdMap.mem_values_iff.mp hm
    obtain ⟨-, rfl⟩ := of_mem_submodels_compile (OrdMap.get?_eq_some_iff.mp hget)
    exact Nat.le_of_eq (schema.typeGraph.heightAll_referring name)
  · intro r hr
    obtain ⟨_, _, reference, _, rfl⟩ := mem_roots_compile hr
    exact Nat.le_of_eq (schema.typeGraph.heightAll_referring reference.target)

end Schema

namespace Compilation

/-- The JSON form of a compilation is read as that compilation, and the pretty text of a compiled
schema is within the limit of nesting and read as what was compiled. -/
theorem emitted_lossless :
    (∀ c : Compilation, c.DepthsFit → ofJson? c.toJson = some c) ∧
      ∀ (schema : Schema) (config : Config),
        config.submodelDepth < natBound → config.rootDepth < natBound →
          (schema.compile config).toJson.nesting ≤ maxNesting ∧
            (parse? (schema.compile config).toJson.pretty).bind ofJson? =
              some (schema.compile config) := by
  refine ⟨fun c h => ofJson?_toJson h, fun schema config hsubmodels hroots => ?_⟩
  have hnesting : (schema.compile config).toJson.nesting ≤ maxNesting :=
    Nat.le_trans (schema.nesting_compile_le config) (by decide)
  exact ⟨hnesting, parse?_pretty (Schema.depthsFit_compile hsubmodels hroots) hnesting⟩

theorem emitted_lossless_nested :
    let c : Compilation := ⟨["b", "a", "b"],
      ⟨.ofList [("Key", ⟨"\"Näme\n", 18446744073709551615,
        [.nested "x" [.nested "y" [.reference "z" "Missing"], .field ""], .field "x"]⟩)]⟩,
      .ofList [("key", ⟨"field", .mutation, "Key", 0, [.reference "field" "Key"]⟩)]⟩
    let schema : Schema := ⟨.ofList [("Query", ⟨"Query", .composite,
      .ofList [("self", ⟨"self", some (.named "Query"), []⟩)]⟩)], some "Query", none⟩
    c.DepthsFit ∧ ofJson? c.toJson = some c ∧
      (Config.standard.submodelDepth < natBound ∧ Config.standard.rootDepth < natBound) ∧
        (parse? (schema.compile .standard).toJson.pretty).bind ofJson? =
          some (schema.compile .standard) :=
  have hfit : DepthsFit _ := ⟨by decide, by decide⟩
  have hconfig : Config.standard.submodelDepth < natBound ∧
    Config.standard.rootDepth < natBound := by decide
  ⟨hfit, emitted_lossless.1 _ hfit, hconfig,
    (emitted_lossless.2 _ Config.standard hconfig.1 hconfig.2).2⟩

end Compilation

end SelectionCompiler
