import SelectionCompiler.Selection.Arena
import SelectionCompiler.Proofs.OrdMap

/-!
Arenas under fills. A fill never changes which types are registered or their
order; it changes what is found under the filled type and nothing else, and only
if that type is registered. Main statement: after any run of fills an arena lists
the distinct names that it was made for, each with the submodel filled in last.
-/

namespace SelectionCompiler.Arena

variable {a : Arena}

theorem contains_iff {type : String} : a.contains type = true ↔ type ∈ a.entries.keys :=
  OrdMap.contains_iff

theorem get?_eq_none_iff {type : String} : a.get? type = none ↔ type ∉ a.entries.keys :=
  OrdMap.get?_eq_none_iff

theorem eq_of_get?_eq {b : Arena} (hkeys : a.entries.keys = b.entries.keys)
    (hget : ∀ type, a.get? type = b.get? type) : a = b := by
  cases a
  cases b
  exact congrArg mk (OrdMap.eq_of_get?_eq hkeys hget)

theorem keys_withOrder_eraseDups (names : List String) (depth : Nat) :
    (withOrder names depth).entries.keys = names.eraseDups := by
  rw [withOrder, OrdMap.keys_ofList, List.map_map]
  exact congrArg List.eraseDups (List.map_id names)

theorem keys_withOrder {names : List String} (h : names.Nodup) (depth : Nat) :
    (withOrder names depth).entries.keys = names := by
  rw [keys_withOrder_eraseDups, eraseDups_of_nodup h]

theorem get?_withOrder (names : List String) (depth : Nat) (type : String) :
    (withOrder names depth).get? type =
      if type ∈ names then some ⟨type, depth, []⟩ else none :=
  OrdMap.get?_insertAll_map .empty (fun name => Submodel.mk name depth []) names type

theorem fill_of_mem {m : Submodel} (h : m.typeName ∈ a.entries.keys) :
    a.fill m = ⟨a.entries.insert m.typeName m⟩ := by
  simp [fill, fill?, OrdMap.contains_iff.mpr h]

theorem fill_of_notMem {m : Submodel} (h : m.typeName ∉ a.entries.keys) : a.fill m = a := by
  simp [fill, fill?, OrdMap.contains_iff, h]

theorem keys_fill (a : Arena) (m : Submodel) : (a.fill m).entries.keys = a.entries.keys := by
  by_cases h : m.typeName ∈ a.entries.keys
  · rw [fill_of_mem h, OrdMap.keys_insert, if_pos h]
  · rw [fill_of_notMem h]

theorem get?_fill (a : Arena) (m : Submodel) (type : String) :
    (a.fill m).get? type =
      if type = m.typeName ∧ type ∈ a.entries.keys then some m else a.get? type := by
  by_cases h : m.typeName ∈ a.entries.keys
  · rw [fill_of_mem h, get?, OrdMap.get?_insert]
    by_cases htype : type = m.typeName
    · simp [htype, h]
    · simp [htype, get?]
  · rw [fill_of_notMem h, if_neg]
    rintro ⟨rfl, hmem⟩
    exact h hmem

theorem isSome_fill? (a : Arena) (m : Submodel) :
    (a.fill? m).isSome = decide (m.typeName ∈ a.entries.keys) := by
  unfold fill?
  by_cases h : m.typeName ∈ a.entries.keys <;> simp [OrdMap.contains_iff, h]

/-- A fill reads and writes nothing but the place of its own type. -/
theorem fill_comm (a : Arena) {m n : Submodel} (h : m.typeName ≠ n.typeName) :
    (a.fill m).fill n = (a.fill n).fill m := by
  apply eq_of_get?_eq
  · simp only [keys_fill]
  · intro type
    simp only [get?_fill, keys_fill]
    by_cases hm : type = m.typeName
    · simp [hm, h]
    · simp [hm]

/-! ### Filling several types -/

/-- The arena after filling in a submodel for each name. -/
def fillEach (a : Arena) (submodel : String → Submodel) (names : List String) : Arena :=
  names.foldl (fun a name => a.fill (submodel name)) a

theorem keys_fillEach (a : Arena) (submodel : String → Submodel) (names : List String) :
    (a.fillEach submodel names).entries.keys = a.entries.keys := by
  induction names generalizing a with
  | nil => rfl
  | cons name rest ih => exact (ih (a.fill (submodel name))).trans (keys_fill a _)

theorem get?_fillEach (a : Arena) {submodel : String → Submodel}
    (hname : ∀ name, (submodel name).typeName = name) (names : List String) (type : String) :
    (a.fillEach submodel names).get? type =
      if type ∈ names ∧ type ∈ a.entries.keys then some (submodel type) else a.get? type := by
  induction names generalizing a with
  | nil => simp [fillEach]
  | cons name rest ih =>
      change ((a.fill (submodel name)).fillEach submodel rest).get? type = _
      rw [ih, keys_fill, get?_fill, hname]
      simp only [List.mem_cons]
      by_cases htype : type = name
      · subst htype
        by_cases hkey : type ∈ a.entries.keys <;> simp [hkey]
      · simp [htype]

/-! ### Runs of fills -/

/-- The arena after fills, one after the other. -/
def fillAll (a : Arena) (ms : List Submodel) : Arena := ms.foldl fill a

/-- The submodel of a type after fills: the one filled in last, or else the empty one. -/
def latest (depth : Nat) (ms : List Submodel) (type : String) : Submodel :=
  (ms.findRev? fun m => m.typeName = type).getD ⟨type, depth, []⟩

theorem typeName_latest (depth : Nat) (ms : List Submodel) (type : String) :
    (latest depth ms type).typeName = type := by
  unfold latest
  cases hlast : ms.findRev? fun m => m.typeName = type with
  | none => rfl
  | some m =>
      rw [List.findRev?_eq_find?_reverse] at hlast
      simpa using List.find?_some hlast

theorem keys_fillAll (a : Arena) (ms : List Submodel) :
    (a.fillAll ms).entries.keys = a.entries.keys := by
  induction ms generalizing a with
  | nil => rfl
  | cons m rest ih => exact (ih (a.fill m)).trans (keys_fill a m)

theorem get?_fillAll (a : Arena) (ms : List Submodel) (type : String) :
    (a.fillAll ms).get? type = (a.get? type).map fun registered =>
      (ms.findRev? fun m => m.typeName = type).getD registered := by
  induction ms generalizing a with
  | nil => simp [fillAll, List.findRev?]
  | cons m rest ih =>
      change ((a.fill m).fillAll rest).get? type = _
      rw [ih, get?_fill, List.findRev?]
      cases hget : a.get? type with
      | none => simp [get?_eq_none_iff.mp hget]
      | some registered =>
          have hkey : type ∈ a.entries.keys := OrdMap.mem_keys_iff.mpr ⟨registered, hget⟩
          -- the first fill counts if it is of the type and no later one is
          by_cases hm : m.typeName = type
          · cases rest.findRev? fun m => m.typeName = type <;> simp [hm, hkey]
          · cases rest.findRev? fun m => m.typeName = type <;> simp [hm, Ne.symm hm]

theorem keys_fillAll_withOrder (names : List String) (depth : Nat) (ms : List Submodel) :
    ((withOrder names depth).fillAll ms).entries.keys = names.eraseDups := by
  rw [keys_fillAll, keys_withOrder_eraseDups]

theorem get?_fillAll_withOrder (names : List String) (depth : Nat) (ms : List Submodel)
    (type : String) : ((withOrder names depth).fillAll ms).get? type =
      if type ∈ names then some (latest depth ms type) else none := by
  rw [get?_fillAll, get?_withOrder]
  split <;> rfl

theorem toList_fillAll_withOrder (names : List String) (depth : Nat) (ms : List Submodel) :
    ((withOrder names depth).fillAll ms).entries.toList =
      names.eraseDups.map fun name => (name, latest depth ms name) := by
  rw [OrdMap.toList_eq_filterMap, keys_fillAll_withOrder,
    List.filterMap_eq_map_iff_forall_eq_some]
  intro name hname
  change (((withOrder names depth).fillAll ms).get? name).map _ = _
  rw [get?_fillAll_withOrder, if_pos (List.mem_eraseDups.mp hname), Option.map_some]

/-- What an arena made for the names is to be after fills, the refused ones among them. -/
structure HoldsLatest (names : List String) (depth : Nat) (ms : List Submodel) (a : Arena) :
    Prop where
  /-- The distinct names stand in order of first occurrence. -/
  entries : a.entries.toList = names.eraseDups.map fun name => (name, latest depth ms name)
  keyed : ∀ entry ∈ a.entries.toList, entry.2.typeName = entry.1
  found : ∀ type, a.get? type = if type ∈ names then some (latest depth ms type) else none
  accepts : ∀ m, (a.fill? m).isSome = true ↔ m.typeName ∈ names
  refuses : ∀ m, a.fill? m = none → a.fill m = a
  commutes : ∀ m n, m.typeName ≠ n.typeName → (a.fill m).fill n = (a.fill n).fill m

/-- After any run of fills an arena holds the latest submodel of each name it was made for, or
the empty one where none came. Which names it lists, and where, does not depend on the fills. -/
theorem holdsLatest_fillAll (names : List String) (depth : Nat) (ms : List Submodel) :
    HoldsLatest names depth ms ((withOrder names depth).fillAll ms) where
  entries := toList_fillAll_withOrder names depth ms
  keyed entry hentry := by
    rw [toList_fillAll_withOrder] at hentry
    obtain ⟨name, _, rfl⟩ := List.mem_map.mp hentry
    exact typeName_latest depth ms name
  found := get?_fillAll_withOrder names depth ms
  accepts m := by
    rw [isSome_fill?, keys_fillAll_withOrder, decide_eq_true_eq, List.mem_eraseDups]
  refuses m hrefused := by rw [fill, hrefused, Option.getD_none]
  commutes _ _ := fill_comm _

end SelectionCompiler.Arena
