import SelectionCompiler.Proofs.StaticModule.Claims
import Mathlib.Data.List.Forall2

/-!
The names that a module asks identifiers for: those of the tables of submodels, of root
fields and their depths, and of nested selections under the name of what they are
nested in. Main statement: the identifiers declared are claimed for these names, one
for each and in this order.
-/

namespace SelectionCompiler

open StaticModule

/-- The identifier was claimed for the wanted name, with some identifiers in use. -/
def Identifier.IsClaimOf (wanted identifier : String) : Prop :=
  ∃ used, identifier = Identifier.claim used wanted

namespace Element

mutual

/-- The name wanted for the nested selection of an element under `base`, and the names
wanted for those within it. -/
def wantedNames (base : String) : Element → List String
  | .nested name children => nestedBase base name :: wantedNamesAll (nestedBase base name) children
  | _ => []

def wantedNamesAll (base : String) : List Element → List String
  | [] => []
  | e :: rest => wantedNames base e ++ wantedNamesAll base rest

end

end Element

def Submodel.wantedNames (naming : Naming) (m : Submodel) : List String :=
  naming.tableName m.typeName :: Element.wantedNamesAll m.typeName m.selection

def Root.wantedNames (r : Root) : List String :=
  r.field :: (Element.wantedNamesAll r.field r.selection ++ [depthName r.field])

def Compilation.wantedNames (c : Compilation) (naming : Naming) : List String :=
  c.submodels.submodels.flatMap (Submodel.wantedNames naming) ++
    c.roots.values.flatMap Root.wantedNames

namespace StaticModule

open Element Identifier

/-- The identifiers declared, each claimed for one of the wanted names. -/
def ClaimedFor (wanted : List String) (ds : List Declaration) : Prop :=
  List.Forall₂ IsClaimOf wanted (ds.map Declaration.identifier)

theorem ClaimedFor.append {wanted wanted' : List String} {ds ds' : List Declaration}
    (h : ClaimedFor wanted ds) (h' : ClaimedFor wanted' ds') :
    ClaimedFor (wanted ++ wanted') (ds ++ ds') := by
  rw [ClaimedFor, List.map_append]
  exact List.rel_append h h'

theorem isClaimOf_claim (used : List String) (wanted : String) :
    IsClaimOf wanted (claim used wanted) := ⟨used, rfl⟩

theorem claimedFor_listTables (names : TableNames) (s : Selection) (base : String)
    (before used : List String) :
    ClaimedFor (wantedNamesAll base s)
      (listTables names base used s (items names base before s).1).1 := by
  induction s using Selection.induction generalizing base before used with
  | nil => exact .nil
  | field name rest ih => exact ih base before used
  | reference name type rest ih => exact ih base before used
  | nested name children rest ihchildren ihrest =>
      rw [items_nested, listTables_nested]
      exact .cons (isClaimOf_claim before _) ((ihchildren _ _ _).append (ihrest _ _ _))

theorem claimedFor_tables (names : TableNames) (used : List String) {wanted identifier : String}
    (h : IsClaimOf wanted identifier) (base doc : String) (s : Selection) :
    ClaimedFor (wanted :: wantedNamesAll base s) (tables names used identifier base doc s).1 :=
  .cons h (claimedFor_listTables names s base used _)

theorem isClaimOf_tableOf (naming : Naming) {ms : List Submodel}
    (h : (ms.map Submodel.typeName).Nodup) (names : TableNames) (used : List String) :
    ∀ m ∈ ms, IsClaimOf (naming.tableName m.typeName)
      (tableOf (claimTableNames naming names used ms).1 m.typeName) := by
  induction ms generalizing names used with
  | nil => exact fun _ h => absurd h List.not_mem_nil
  | cons m rest ih =>
      rw [List.map_cons, List.nodup_cons] at h
      refine List.forall_mem_cons.mpr ⟨?_, ih h.2 _ _⟩
      rw [tableOf, claimTableNames, claimTableNames_get?_of_notMem naming h.1,
        OrdMap.get?_insert, if_pos rfl, Option.getD_some]
      exact isClaimOf_claim used _

theorem claimedFor_submodelTables (naming : Naming) (typesPath : Option String)
    (names : TableNames) {ms : List Submodel}
    (h : ∀ m ∈ ms, IsClaimOf (naming.tableName m.typeName) (tableOf names m.typeName))
    (used : List String) :
    ClaimedFor (ms.flatMap (Submodel.wantedNames naming))
      (submodelTables naming typesPath names used ms).1 := by
  induction ms generalizing used with
  | nil => exact .nil
  | cons m rest ih =>
      obtain ⟨hm, hrest⟩ := List.forall_mem_cons.mp h
      exact (claimedFor_tables names used hm m.typeName _ m.selection).append (ih hrest _)

theorem claimedFor_rootTables (names : TableNames) (rs : List Root) (used : List String) :
    ClaimedFor (rs.flatMap Root.wantedNames) (rootTables names used rs).1 := by
  induction rs generalizing used with
  | nil => exact .nil
  | cons r rest ih =>
      have htables := claimedFor_tables names (claim used r.field :: used)
        (isClaimOf_claim used r.field) r.field (rootDoc r) r.selection
      rw [List.flatMap_cons, Root.wantedNames, ← List.cons_append, List.append_assoc,
        List.singleton_append]
      exact htables.append (.cons (isClaimOf_claim _ _) (ih _))

end StaticModule

/-- The identifiers of a module are claimed for the names that its compilation wants. -/
theorem Compilation.claimedFor_staticModule {c : Compilation}
    (h : (c.submodels.submodels.map Submodel.typeName).Nodup) (naming : Naming)
    (config : Config) :
    ClaimedFor (c.wantedNames naming) (c.staticModule naming config).declarations :=
  (claimedFor_submodelTables naming config.typesPath (c.tableNames naming)
    (isClaimOf_tableOf naming h ∅ []) _).append
    (claimedFor_rootTables (c.tableNames naming) c.roots.values _)

end SelectionCompiler
