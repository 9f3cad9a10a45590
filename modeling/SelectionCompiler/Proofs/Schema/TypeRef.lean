import SelectionCompiler.Proofs.Introspection.Reference

/-!
The two forms of a reference to a type: its text, and the chain of layers that stands for it
in an introspection result. Main statement: neither form loses anything. A text read backwards
shows the wrappers from the outermost inwards and, without all marks, the name below them; a
chain of layers is read as the one reference that it denotes, or else as none, when it comes to
an end without a name.

Only the name can blur a text, so it must be free of the marks. The name of a wrapper, and what
a named type wraps, are of no account to a chain.
-/

namespace SelectionCompiler

/-- The wrapper whose text ends with a character. -/
def Wrapper.ofMark? : Char → Option Wrapper
  | ']' => some .list
  | '!' => some .nonNull
  | _ => none

namespace TypeRef

variable {t : TypeRef}

/-! ### Texts -/

/-- The characters that a text has from its wrappers. -/
def marks : List Char := ['[', ']', '!']

/-- The name has none of the characters that mark wrappers. -/
def Unmarked (t : TypeRef) : Prop := ∀ c ∈ t.target.toList, c ∉ marks

instance (t : TypeRef) : Decidable t.Unmarked := List.decidableBAll (· ∉ marks) t.target.toList

/-- The wrappers, from the outermost inwards. -/
def wrappers : TypeRef → List Wrapper
  | .named _ => []
  | .list item => .list :: item.wrappers
  | .nonNull inner => .nonNull :: inner.wrappers

def withoutMarks (text : String) : String :=
  String.ofList (text.toList.filter fun c => c ∉ marks)

/-- The wrappers that a text shows at its end; the text is given backwards. -/
def shownWrappers : List Char → List Wrapper
  | [] => []
  | c :: rest =>
      match Wrapper.ofMark? c with
      | some w => w :: shownWrappers rest
      | none => []

/-- Reads a text backwards. -/
def ofText (text : String) : TypeRef :=
  (shownWrappers text.toList.reverse).foldr Wrapper.wrap (.named (withoutMarks text))

theorem foldr_wrappers (t : TypeRef) : t.wrappers.foldr Wrapper.wrap (.named t.target) = t := by
  induction t with
  | named name => rfl
  | list item ih => exact congrArg TypeRef.list ih
  | nonNull inner ih => exact congrArg TypeRef.nonNull ih

theorem filter_text (h : t.Unmarked) :
    (t.text.toList.filter fun c => c ∉ marks) = t.target.toList := by
  induction t with
  | named name =>
      rw [text, target, List.filter_eq_self]
      exact fun c hc => decide_eq_true (h c hc)
  | list item ih =>
      simp only [text, String.toList_append, List.filter_append, ih h]
      simp [marks, target]
  | nonNull inner ih =>
      simp only [text, String.toList_append, List.filter_append, ih h]
      simp [marks, target]

theorem withoutMarks_text (h : t.Unmarked) : withoutMarks t.text = t.target := by
  rw [withoutMarks, filter_text h, String.ofList_toList]

theorem ofMark?_eq_none {c : Char} (h : c ∉ marks) : Wrapper.ofMark? c = none := by
  unfold Wrapper.ofMark?
  split <;> simp_all [marks]

/-- What opens a list shows no wrapper. -/
theorem shownWrappers_append_bracket (cs : List Char) :
    shownWrappers (cs ++ ['[']) = shownWrappers cs := by
  induction cs with
  | nil => rfl
  | cons c rest ih =>
      simp only [List.cons_append, shownWrappers]
      cases Wrapper.ofMark? c with
      | none => rfl
      | some w => exact congrArg (w :: ·) ih

theorem shownWrappers_text (h : t.Unmarked) :
    shownWrappers t.text.toList.reverse = t.wrappers := by
  induction t with
  | named name =>
      rw [text, wrappers]
      cases hend : name.toList.reverse with
      | nil => rfl
      | cons c rest =>
          have hmem : c ∈ name.toList := List.mem_reverse.mp (hend ▸ List.mem_cons_self)
          rw [shownWrappers, ofMark?_eq_none (h c hmem)]
  | list item ih =>
      have hend : (list item).text.toList.reverse = ']' :: (item.text.toList.reverse ++ ['[']) := by
        simp [text]
      rw [hend, shownWrappers, shownWrappers_append_bracket, ih h]
      rfl
  | nonNull inner ih =>
      have hend : (nonNull inner).text.toList.reverse = '!' :: inner.text.toList.reverse := by
        simp [text]
      rw [hend, shownWrappers, ih h]
      rfl

theorem ofText_text (h : t.Unmarked) : ofText t.text = t := by
  rw [ofText, shownWrappers_text h, withoutMarks_text h, foldr_wrappers]

theorem text_eq_iff {s : TypeRef} (hs : s.Unmarked) (ht : t.Unmarked) :
    s.text = t.text ↔ s = t := by
  constructor
  · intro htext
    rw [← ofText_text hs, htext, ofText_text ht]
  · exact congrArg text

/-! ### Both forms -/

open Introspection

/-- References over unmarked names have the same text only if they are the same, and the text
shows the name. The introspection form of a reference is read as the reference. Whatever spells a
chain is read as that chain; it is taken for the reference that it denotes and for no other, and
for none just when it does not come to a name. -/
theorem forms_faithful :
    (∀ s t : TypeRef, s.Unmarked → t.Unmarked → (s.text = t.text ↔ s = t)) ∧
    (∀ t : TypeRef, t.Unmarked → withoutMarks t.text = t.target) ∧
    (∀ (t : TypeRef) (v : Json), Refers t v →
      (typeReference? v).map (·.toTypeRef?) = some (some t)) ∧
    (∀ (r : TypeReference) (v : Json), r.Spells v → typeReference? v = some r) ∧
    ∀ r : TypeReference, (∀ t : TypeRef, r.toTypeRef? = some t ↔ r.Denotes t) ∧
      (r.toTypeRef? = none ↔ r.Unnamed) := by
  refine ⟨fun _ _ => text_eq_iff, fun _ => withoutMarks_text, fun t v h => ?_,
    fun _ _ => typeReference?_of_spells,
    fun _ => ⟨fun _ => TypeReference.toTypeRef?_eq_some_iff, TypeReference.toTypeRef?_eq_none_iff⟩⟩
  obtain ⟨r, hspells, hdenotes⟩ := h.exists_spells
  rw [typeReference?_of_spells hspells, Option.map_some, hdenotes.toTypeRef?_eq]

/-- A list that is not null of items that are not null. -/
def identifiers : TypeRef := .nonNull (.list (.nonNull (.named "ID")))

/-- The form of a list of items that are not null, of a type that is not there. -/
def unnamedJson : Json :=
  .obj [("kind", .str "LIST"), ("name", .null), ("ofType",
    .obj [("ofType", .null), ("kind", .str "NON_NULL")])]

theorem forms_faithful_nested :
    (identifiers.Unmarked ∧ Refers identifiers (referenceJson (fun _ => "SCALAR") identifiers)) ∧
    (∀ t : TypeRef, t.Unmarked → t.text = "[ID!]!" → t = identifiers) ∧
    withoutMarks "[ID!]!" = "ID" ∧
    (typeReference? (referenceJson (fun _ => "SCALAR") identifiers)).map (·.toTypeRef?) =
      some (some identifiers) ∧
    (typeReference? unnamedJson).map (·.toTypeRef?) = some none := by
  have hname : identifiers.Unmarked := by decide
  have hrefers : Refers identifiers (referenceJson (fun _ => "SCALAR") identifiers) :=
    refers_referenceJson (fun _ => by decide) identifiers
  have hspells : (TypeReference.layer "LIST" none (some (.layer "NON_NULL" none none))).Spells
      unnamedJson :=
    ⟨⟨_, rfl, rfl⟩, .inr ⟨_, rfl, rfl⟩, _, ⟨_, rfl, rfl⟩, ⟨_, rfl, rfl⟩, .inl ⟨_, rfl, rfl⟩,
      .inr ⟨_, rfl, rfl⟩⟩
  have hunnamed : (TypeReference.layer "LIST" none (some (.layer "NON_NULL" none none))).Unnamed :=
    .wrapped .list (.empty .nonNull)
  obtain ⟨htext, htarget, hread, hchain, hmeaning⟩ := forms_faithful
  refine ⟨⟨hname, hrefers⟩, fun t ht heq => (htext t identifiers ht hname).mp heq,
    htarget identifiers hname, hread identifiers _ hrefers, ?_⟩
  rw [hchain _ _ hspells, Option.map_some, (hmeaning _).2.mpr hunnamed]

end TypeRef

end SelectionCompiler
