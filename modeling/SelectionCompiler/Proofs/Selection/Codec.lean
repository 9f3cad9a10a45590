import SelectionCompiler.Proofs.Schema.Codec
import SelectionCompiler.Proofs.Selection.Basic
import SelectionCompiler.Selection.Codec

/-!
The JSON form of selections, and of the submodels and roots that hold them, gives back what was
written. Its nesting grows with the height of the selection only: three containers for each
nested element.
-/

namespace SelectionCompiler

open Json

/-! ### Elements -/

namespace Element

mutual

theorem ofJson?_toJson : ∀ e : Element, ofJson? e.toJson = some e
  | .field name => by simp [toJson, ofJson?]
  | .nested name children => by simp [toJson, ofJson?, listOfJson?_listToJson children]
  | .reference name type => by simp [toJson, ofJson?, required, toString?]

theorem listOfJson?_listToJson : ∀ s : List Element, listOfJson? (listToJson s) = some s
  | [] => rfl
  | e :: rest => by
      simp [listToJson, listOfJson?, ofJson?_toJson e, listOfJson?_listToJson rest]

end

mutual

theorem faithful_toJson : ∀ e : Element, e.toJson.Faithful
  | .field name => .obj (by simp) (by simpa using .str name)
  | .nested name children => by
      have hlist : (arr [.str name, arr (listToJson children)]).Faithful :=
        .arr (by simp [Faithful.str, faithful_listToJson children])
      exact .obj (by simp) (by simpa using hlist)
  | .reference name type => by
      have hparts : (obj [("field", .str name), ("descriptor", .str type)]).Faithful :=
        .obj (by simp) (by simp [Faithful.str])
      exact .obj (by simp) (by simpa using hparts)

theorem faithful_listToJson : ∀ s : List Element, (arr (listToJson s)).Faithful
  | [] => .arr nofun
  | e :: rest => by
      refine .arr fun v hv => ?_
      rcases List.mem_cons.mp hv with rfl | hrest
      · exact faithful_toJson e
      · cases faithful_listToJson rest with
        | arr hitems => exact hitems v hrest

end

mutual

theorem nesting_toJson_le : ∀ e : Element, e.toJson.nesting ≤ 3 * e.height + 2
  | .field name => by simp [toJson, nesting, membersNesting, height]
  | .reference name type => by simp [toJson, nesting, membersNesting, height]
  | .nested name children => by
      have hchildren := itemsNesting_listToJson_le children
      simp only [toJson, nesting, membersNesting, itemsNesting, height]
      omega

theorem itemsNesting_listToJson_le :
    ∀ s : List Element, itemsNesting (listToJson s) ≤ 3 * heightAll s + 2
  | [] => Nat.zero_le _
  | e :: rest => by
      have he := nesting_toJson_le e
      have hrest := itemsNesting_listToJson_le rest
      simp only [listToJson, itemsNesting, heightAll]
      omega

end

end Element

namespace Selection

theorem ofJson?_toJson (s : Selection) : ofJson? s.toJson = some s :=
  Element.listOfJson?_listToJson s

theorem faithful_toJson (s : Selection) : s.toJson.Faithful :=
  Element.faithful_listToJson s

theorem nesting_toJson_le (s : Selection) : s.toJson.nesting ≤ 3 * Element.heightAll s + 3 :=
  Nat.succ_le_succ (Element.itemsNesting_listToJson_le s)

end Selection

/-! ### Submodels and roots -/

theorem OperationKind.ofJson?_keyword (operation : OperationKind) :
    ofJson? (.str operation.keyword) = some operation := by
  cases operation <;> rfl

namespace Submodel

variable {m : Submodel} {n : Nat}

theorem ofJson?_toJson (h : m.depth < natBound) : ofJson? m.toJson = some m := by
  have hname : m.toJson.member? "type_name" = some (.str m.typeName) := by simp [toJson]
  have hdepth : m.toJson.member? "depth" = some (.ofNat m.depth) := by simp [toJson]
  have hselection : m.toJson.member? "selection" = some m.selection.toJson := by simp [toJson]
  simp only [ofJson?, required_of_member? hname, required_of_member? hdepth,
    required_of_member? hselection, toString?, toNat?_ofNat h, m.selection.ofJson?_toJson,
    Option.bind_eq_bind, Option.bind_some]
  rfl

theorem faithful_toJson (h : m.depth < natBound) : m.toJson.Faithful :=
  .obj (by simp) (by simp [Faithful.str, Faithful.ofNat h, Selection.faithful_toJson])

theorem nesting_toJson_le (h : Element.heightAll m.selection ≤ n) :
    m.toJson.nesting ≤ 3 * n + 4 := by
  have hselection := Selection.nesting_toJson_le m.selection
  refine nesting_obj_le (n := 3 * n + 3) ?_
  simp [nesting, nesting_ofNat]
  omega

end Submodel

namespace Root

variable {r : Root} {n : Nat}

theorem ofJson?_toJson (h : r.depth < natBound) : ofJson? r.toJson = some r := by
  have hfield : r.toJson.member? "field" = some (.str r.field) := by simp [toJson]
  have hoperation : r.toJson.member? "operation" = some (.str r.operation.keyword) := by
    simp [toJson]
  have htype : r.toJson.member? "return_type" = some (.str r.returnType) := by simp [toJson]
  have hdepth : r.toJson.member? "depth" = some (.ofNat r.depth) := by simp [toJson]
  have hselection : r.toJson.member? "selection" = some r.selection.toJson := by simp [toJson]
  simp only [ofJson?, required_of_member? hfield, required_of_member? hoperation,
    required_of_member? htype, required_of_member? hdepth, required_of_member? hselection,
    toString?, r.operation.ofJson?_keyword, toNat?_ofNat h, r.selection.ofJson?_toJson,
    Option.bind_eq_bind, Option.bind_some]
  rfl

theorem faithful_toJson (h : r.depth < natBound) : r.toJson.Faithful :=
  .obj (by simp) (by simp [Faithful.str, Faithful.ofNat h, Selection.faithful_toJson])

theorem nesting_toJson_le (h : Element.heightAll r.selection ≤ n) :
    r.toJson.nesting ≤ 3 * n + 4 := by
  have hselection := Selection.nesting_toJson_le r.selection
  refine nesting_obj_le (n := 3 * n + 3) ?_
  simp [nesting, nesting_ofNat]
  omega

end Root

end SelectionCompiler
