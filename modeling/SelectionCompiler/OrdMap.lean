/-!
Finite maps with string keys that remember the order in which their keys first
arrived, and the ordered sets that go with them. Inserting under a present key
replaces the value where it stands; a new key goes to the end. Everything a map
does is said of its list of entries, so `toList` is the view to reason with.
-/

namespace SelectionCompiler

universe u v

/-- Puts `value` under `key`: in the place of the first entry with that key, or
at the end when there is none. -/
def upsert {α : Type u} (key : String) (value : α) : List (String × α) → List (String × α)
  | [] => [(key, value)]
  | (k, v) :: rest => if k = key then (key, value) :: rest else (k, v) :: upsert key value rest

theorem keys_upsert {α : Type u} (key : String) (value : α) (entries : List (String × α)) :
    (upsert key value entries).map Prod.fst =
      if key ∈ entries.map Prod.fst then entries.map Prod.fst
      else entries.map Prod.fst ++ [key] := by
  induction entries with
  | nil => simp [upsert]
  | cons e rest ih =>
      obtain ⟨k, v⟩ := e
      by_cases h : k = key
      · simp [upsert, h]
      · have h' : key ≠ k := fun e => h e.symm
        simp only [upsert, h, if_false, List.map_cons, ih, List.mem_cons, h', false_or]
        split <;> simp

theorem nodup_keys_upsert {α : Type u} (key : String) (value : α) {entries : List (String × α)}
    (h : (entries.map Prod.fst).Nodup) : ((upsert key value entries).map Prod.fst).Nodup := by
  rw [keys_upsert]
  split
  · exact h
  · rename_i hk
    rw [List.nodup_append]
    refine ⟨h, by simp, ?_⟩
    rintro a ha b hb rfl
    simp only [List.mem_singleton] at hb
    exact hk (hb ▸ ha)

theorem lookup_upsert {α : Type u} (key other : String) (value : α)
    (entries : List (String × α)) :
    (upsert key value entries).lookup other =
      if other = key then some value else entries.lookup other := by
  induction entries with
  | nil => by_cases h : other = key <;> simp [upsert, List.lookup_cons, h, beq_eq_false_iff_ne.2]
  | cons e rest ih =>
      obtain ⟨k, v⟩ := e
      by_cases hk : k = key
      · subst hk
        by_cases h : other = k <;> simp [upsert, List.lookup_cons, h, beq_eq_false_iff_ne.2]
      · by_cases ho : other = k
        · simp [upsert, hk, ho]
        · simp [upsert, List.lookup_cons, hk, beq_eq_false_iff_ne.2 ho, ih]

/-- A map from strings that lists its entries in order of first arrival. -/
structure OrdMap (α : Type u) where
  toList : List (String × α)
  nodup_keys : (toList.map Prod.fst).Nodup

namespace OrdMap

variable {α : Type u} {β : Type v}

@[ext] theorem ext {m n : OrdMap α} (h : m.toList = n.toList) : m = n := by
  cases m; cases n; cases h; rfl

instance [DecidableEq α] : DecidableEq (OrdMap α) := fun m n =>
  decidable_of_iff (m.toList = n.toList) ⟨ext, congrArg toList⟩

def empty : OrdMap α := ⟨[], List.nodup_nil⟩

instance : EmptyCollection (OrdMap α) := ⟨empty⟩
instance : Inhabited (OrdMap α) := ⟨empty⟩

/-- The keys, in order of first arrival. -/
def keys (m : OrdMap α) : List String := m.toList.map Prod.fst

/-- The values, in the order of their keys. -/
def values (m : OrdMap α) : List α := m.toList.map Prod.snd

def size (m : OrdMap α) : Nat := m.toList.length

def isEmpty (m : OrdMap α) : Bool := m.toList.isEmpty

/-- The value stored under `key`. -/
def get? (m : OrdMap α) (key : String) : Option α := m.toList.lookup key

def contains (m : OrdMap α) (key : String) : Bool := (m.get? key).isSome

/-- Stores `value` under `key`, in the place of the value that was there, if any. -/
def insert (m : OrdMap α) (key : String) (value : α) : OrdMap α :=
  ⟨upsert key value m.toList, nodup_keys_upsert key value m.nodup_keys⟩

/-- Stores `value` under `key` only if the key is new. -/
def insertIfNew (m : OrdMap α) (key : String) (value : α) : OrdMap α :=
  if m.contains key then m else m.insert key value

/-- Inserts the entries one after the other: a repeated key keeps its first place
and takes its last value. -/
def insertAll (m : OrdMap α) (entries : List (String × α)) : OrdMap α :=
  entries.foldl (fun m e => m.insert e.1 e.2) m

def ofList (entries : List (String × α)) : OrdMap α := empty.insertAll entries

@[simp] theorem toList_empty : (∅ : OrdMap α).toList = [] := rfl

@[simp] theorem toList_insert (m : OrdMap α) (key : String) (value : α) :
    (m.insert key value).toList = upsert key value m.toList := rfl

theorem get?_insert (m : OrdMap α) (key other : String) (value : α) :
    (m.insert key value).get? other = if other = key then some value else m.get? other :=
  lookup_upsert key other value m.toList

theorem keys_insert (m : OrdMap α) (key : String) (value : α) :
    (m.insert key value).keys = if key ∈ m.keys then m.keys else m.keys ++ [key] :=
  keys_upsert key value m.toList

end OrdMap

/-- A set of strings that lists its members in order of first arrival. -/
structure OrdSet where
  toList : List String
  nodup : toList.Nodup

namespace OrdSet

@[ext] theorem ext {s t : OrdSet} (h : s.toList = t.toList) : s = t := by
  cases s; cases t; cases h; rfl

instance : DecidableEq OrdSet := fun s t =>
  decidable_of_iff (s.toList = t.toList) ⟨ext, congrArg toList⟩

def empty : OrdSet := ⟨[], List.nodup_nil⟩

instance : EmptyCollection OrdSet := ⟨empty⟩
instance : Inhabited OrdSet := ⟨empty⟩

instance : Membership String OrdSet := ⟨fun s x => x ∈ s.toList⟩

instance (x : String) (s : OrdSet) : Decidable (x ∈ s) := inferInstanceAs (Decidable (x ∈ s.toList))

theorem nodup_concat {xs : List String} {x : String} (h : xs.Nodup) (hx : x ∉ xs) :
    (xs ++ [x]).Nodup := by
  rw [List.nodup_append]
  refine ⟨h, by simp, ?_⟩
  rintro a ha b hb rfl
  simp only [List.mem_singleton] at hb
  exact hx (hb ▸ ha)

/-- Adds `x` at the end unless it is already a member. -/
def insert (s : OrdSet) (x : String) : OrdSet :=
  if h : x ∈ s.toList then s else ⟨s.toList ++ [x], nodup_concat s.nodup h⟩

def insertAll (s : OrdSet) (xs : List String) : OrdSet := xs.foldl insert s

/-- The distinct strings of a list, in order of first occurrence. -/
def ofList (xs : List String) : OrdSet := empty.insertAll xs

@[simp] theorem mem_toList {x : String} {s : OrdSet} : x ∈ s.toList ↔ x ∈ s := Iff.rfl

@[simp] theorem mem_insert {s : OrdSet} {x y : String} : y ∈ s.insert x ↔ y ∈ s ∨ y = x := by
  unfold insert
  split
  · rename_i h
    constructor
    · exact Or.inl
    · rintro (hy | rfl)
      · exact hy
      · exact h
  · simp [← mem_toList]

@[simp] theorem mem_insertAll {s : OrdSet} {xs : List String} {y : String} :
    y ∈ s.insertAll xs ↔ y ∈ s ∨ y ∈ xs := by
  induction xs generalizing s with
  | nil => simp [insertAll]
  | cons x xs ih =>
      show y ∈ (s.insert x).insertAll xs ↔ _
      rw [ih, mem_insert, List.mem_cons, or_assoc]

theorem mem_ofList {xs : List String} {x : String} : x ∈ ofList xs ↔ x ∈ xs := by
  have h : x ∉ empty := List.not_mem_nil
  simp [ofList, h]

end OrdSet

end SelectionCompiler
