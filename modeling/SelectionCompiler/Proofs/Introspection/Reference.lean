import SelectionCompiler.Proofs.Introspection.Description

/-!
Chains of layers. A described member is found whatever stands beside it, so a value that spells
a chain is read layer by layer, each layer being nested less deeply than the one around it. A
chain is then taken for the one reference that it denotes, or for none when it comes to an end
without a name. The name of a wrapper, and what a named type wraps, are of no account.
-/

namespace SelectionCompiler

/-- What can stand around a type. -/
inductive Wrapper where
  | list
  | nonNull

namespace Wrapper

def wrap : Wrapper → TypeRef → TypeRef
  | .list => .list
  | .nonNull => .nonNull

/-- The kind of a layer that is such a wrapper. -/
def kind : Wrapper → String
  | .list => "LIST"
  | .nonNull => "NON_NULL"

end Wrapper

namespace Json

variable {v w : Json} {key : String}

theorem membersNesting_of_mem {members : List (String × Json)} {m : String × Json}
    (h : m ∈ members) : m.2.nesting ≤ membersNesting members := by
  induction members with
  | nil => cases h
  | cons first rest ih =>
      rw [membersNesting]
      rcases List.mem_cons.mp h with rfl | hrest
      · exact Nat.le_max_left _ _
      · exact Nat.le_trans (ih hrest) (Nat.le_max_right _ _)

theorem Holds.nesting_lt (h : v.Holds key w) : w.nesting < v.nesting := by
  obtain ⟨members, rfl, hfilter⟩ := h
  have hmem : (key, w) ∈ members.filter (·.1 == key) := by simp [hfilter]
  rw [nesting]
  exact Nat.lt_succ_of_le (membersNesting_of_mem (List.mem_of_mem_filter hmem))

end Json

namespace Introspection

/-! ### Members -/

section

variable {α β : Type} {v w : Json} {key : String} {decode : Json → Option α}

theorem member?_of_holds (h : v.Holds key w) : member? v key = some (some w) := by
  obtain ⟨members, rfl, hfilter⟩ := h
  simp [member?, Json.toMembers?, hfilter]

theorem member?_of_lacks (h : v.Lacks key) : member? v key = some none := by
  obtain ⟨members, rfl, hfilter⟩ := h
  simp [member?, Json.toMembers?, hfilter]

theorem required_of_holds (h : v.Holds key w) : required v key decode = decode w := by
  simp [required, member?_of_holds h]

theorem optional_of_holds (h : v.Holds key w) (hw : w ≠ .null) :
    optional v key decode = (decode w).map some := by
  rw [optional, member?_of_holds h]
  cases w with
  | null => exact absurd rfl hw
  | _ => rfl

theorem optional_of_isBlank (h : v.IsBlank key) : optional v key decode = some none := by
  rcases h with hlacks | hholds
  · simp [optional, member?_of_lacks hlacks]
  · simp [optional, member?_of_holds hholds]

end

/-! ### Chains -/

namespace TypeReference

/-- The chain ends in a name below wrappers, and these are the wrappers of the reference. -/
inductive Denotes : TypeReference → TypeRef → Prop
  | named {kind name : String} {ofType : Option TypeReference}
      (h : ∀ w : Wrapper, kind ≠ w.kind) :
      Denotes (.layer kind (some name) ofType) (.named name)
  | wrapped (w : Wrapper) {name : Option String} {r : TypeReference} {t : TypeRef} :
      Denotes r t → Denotes (.layer w.kind name (some r)) (w.wrap t)

/-- Below some wrappers the chain ends in a wrapper of nothing or in a type without a name. -/
inductive Unnamed : TypeReference → Prop
  | nameless {kind : String} {ofType : Option TypeReference} (h : ∀ w : Wrapper, kind ≠ w.kind) :
      Unnamed (.layer kind none ofType)
  | empty (w : Wrapper) {name : Option String} : Unnamed (.layer w.kind name none)
  | wrapped (w : Wrapper) {name : Option String} {r : TypeReference} :
      Unnamed r → Unnamed (.layer w.kind name (some r))

/-- The value has the members of each layer of the chain. -/
def Spells : TypeReference → Json → Prop
  | .layer kind name ofType, v =>
      v.Holds "kind" (.str kind) ∧
        (match name with
        | some name => v.Holds "name" (.str name)
        | none => v.IsBlank "name") ∧
        match ofType with
        | some r => ∃ w, v.Holds "ofType" w ∧ r.Spells w
        | none => v.IsBlank "ofType"

theorem toTypeRef?_wrapper (w : Wrapper) (name : Option String) (ofType : Option TypeReference) :
    (layer w.kind name ofType).toTypeRef? = ofType.bind fun r => r.toTypeRef?.map w.wrap := by
  cases w <;> cases ofType <;> simp [toTypeRef?, Wrapper.kind, Wrapper.wrap]

theorem toTypeRef?_leaf {kind : String} (h : ∀ w : Wrapper, kind ≠ w.kind) (name : Option String)
    (ofType : Option TypeReference) :
    (layer kind name ofType).toTypeRef? = name.map .named := by
  have hnonNull : kind ≠ "NON_NULL" := h .nonNull
  have hlist : kind ≠ "LIST" := h .list
  rw [toTypeRef?.eq_def]
  simp only [if_neg hnonNull, if_neg hlist]

theorem Denotes.toTypeRef?_eq {r : TypeReference} {t : TypeRef} (h : r.Denotes t) :
    r.toTypeRef? = some t := by
  induction h with
  | named h => rw [toTypeRef?_leaf h, Option.map_some]
  | wrapped w _ ih => rw [toTypeRef?_wrapper, Option.bind_some, ih, Option.map_some]

theorem Unnamed.toTypeRef?_eq {r : TypeReference} (h : r.Unnamed) : r.toTypeRef? = none := by
  induction h with
  | nameless h => rw [toTypeRef?_leaf h, Option.map_none]
  | empty w => rw [toTypeRef?_wrapper, Option.bind_none]
  | wrapped w _ ih => rw [toTypeRef?_wrapper, Option.bind_some, ih, Option.map_none]

theorem denotes_or_unnamed : ∀ r : TypeReference, (∃ t, r.Denotes t) ∨ r.Unnamed
  | .layer kind name ofType => by
      by_cases hkind : ∃ w : Wrapper, kind = w.kind
      · obtain ⟨w, rfl⟩ := hkind
        cases ofType with
        | none => exact .inr (.empty w)
        | some r =>
            rcases denotes_or_unnamed r with ⟨t, ht⟩ | hr
            · exact .inl ⟨w.wrap t, .wrapped w ht⟩
            · exact .inr (.wrapped w hr)
      · -- a layer of any other kind is the last one, whatever it wraps
        have hleaf (w : Wrapper) : kind ≠ w.kind := fun heq => hkind ⟨w, heq⟩
        cases name with
        | none => exact .inr (.nameless hleaf)
        | some name => exact .inl ⟨.named name, .named hleaf⟩

theorem toTypeRef?_eq_some_iff {r : TypeReference} {t : TypeRef} :
    r.toTypeRef? = some t ↔ r.Denotes t := by
  constructor
  · intro h
    rcases r.denotes_or_unnamed with ⟨denoted, hr⟩ | hr
    · obtain rfl : denoted = t := Option.some.inj (hr.toTypeRef?_eq.symm.trans h)
      exact hr
    · rw [hr.toTypeRef?_eq] at h
      cases h
  · exact Denotes.toTypeRef?_eq

theorem toTypeRef?_eq_none_iff {r : TypeReference} : r.toTypeRef? = none ↔ r.Unnamed := by
  constructor
  · intro h
    rcases r.denotes_or_unnamed with ⟨t, hr⟩ | hr
    · rw [hr.toTypeRef?_eq] at h
      cases h
    · exact hr
  · exact Unnamed.toTypeRef?_eq

/-! ### Reading a chain -/

theorem Spells.ne_null {r : TypeReference} {v : Json} (h : r.Spells v) : v ≠ .null := by
  obtain ⟨kind, name, ofType⟩ := r
  rw [Spells.eq_def] at h
  obtain ⟨⟨_, rfl, _⟩, _⟩ := h
  exact nofun

theorem typeReferenceWithin_of_spells : ∀ {r : TypeReference} {fuel : Nat} {v : Json},
    r.Spells v → v.nesting < fuel → typeReferenceWithin fuel v = some r
  | .layer kind name ofType, fuel + 1, v, h, hfuel => by
      rw [Spells.eq_def] at h
      obtain ⟨hkind, hname, hof⟩ := h
      have hnames : optional v "name" Json.toString? = some name := by
        cases name with
        | none => exact optional_of_isBlank hname
        | some name => exact optional_of_holds hname (by simp)
      have hofs : optional v "ofType" (typeReferenceWithin fuel) = some ofType := by
        cases ofType with
        | none => exact optional_of_isBlank hof
        | some r =>
            obtain ⟨w, hholds, hw⟩ := hof
            have hlt := hholds.nesting_lt
            have hread : typeReferenceWithin fuel w = some r :=
              typeReferenceWithin_of_spells hw (by omega)
            rw [optional_of_holds hholds hw.ne_null, hread, Option.map_some]
      rw [typeReferenceWithin, required_of_holds hkind, hnames, hofs]
      rfl

end TypeReference

theorem typeReference?_of_spells {r : TypeReference} {v : Json} (h : r.Spells v) :
    typeReference? v = some r :=
  TypeReference.typeReferenceWithin_of_spells h (Nat.lt_succ_self v.nesting)

/-- The chain of wrappers of a reference is a chain that denotes it. -/
theorem Refers.exists_spells {t : TypeRef} {v : Json} (h : Refers t v) :
    ∃ r : TypeReference, r.Spells v ∧ r.Denotes t := by
  induction t generalizing v with
  | named name =>
      obtain ⟨⟨kind, hkind, hnonNull, hlist⟩, hname, hof⟩ := h
      refine ⟨.layer kind (some name) none, ⟨hkind, hname, hof⟩, .named ?_⟩
      rintro (_ | _)
      · exact hlist
      · exact hnonNull
  | list item ih =>
      obtain ⟨hkind, hname, w, hof, hw⟩ := h
      obtain ⟨r, hspells, hdenotes⟩ := ih hw
      exact ⟨.layer "LIST" none (some r), ⟨hkind, hname, w, hof, hspells⟩, .wrapped .list hdenotes⟩
  | nonNull inner ih =>
      obtain ⟨hkind, hname, w, hof, hw⟩ := h
      obtain ⟨r, hspells, hdenotes⟩ := ih hw
      exact ⟨.layer "NON_NULL" none (some r), ⟨hkind, hname, w, hof, hspells⟩,
        .wrapped .nonNull hdenotes⟩

end Introspection

end SelectionCompiler
