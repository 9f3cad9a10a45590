import SelectionCompiler.OrdMap
import Mathlib.Data.List.Nodup

/-!
Ordered maps by their entries: what a map holds under a key is the one entry with
that key, and a list of entries with distinct keys is the map that it builds. The
order of the entries does not matter to what a map holds under a key. A set or a map
built from a list has each string of the list once, in order of first occurrence.
-/

namespace SelectionCompiler

universe u v

variable {α : Type u} {β : Type v}

theorem lookup_eq_some_iff_mem {entries : List (String × α)}
    (h : (entries.map Prod.fst).Nodup) (key : String) (value : α) :
    entries.lookup key = some value ↔ (key, value) ∈ entries := by
  constructor
  · intro hlookup
    obtain ⟨before, after, rfl, _⟩ := List.lookup_eq_some_iff.mp hlookup
    simp
  · intro hmem
    obtain ⟨before, after, rfl⟩ := List.append_of_mem hmem
    refine List.lookup_eq_some_iff.mpr ⟨before, after, rfl, ?_⟩
    intro entry hentry
    rw [List.map_append, List.map_cons] at h
    have hdisjoint := (List.nodup_append.mp h).2.2
    simpa using (hdisjoint _ (List.mem_map_of_mem hentry) key (by simp)).symm

theorem upsert_of_notMem {key : String} (value : α) {entries : List (String × α)}
    (h : key ∉ entries.map Prod.fst) : upsert key value entries = entries ++ [(key, value)] := by
  induction entries with
  | nil => rfl
  | cons e rest ih =>
      obtain ⟨k, v⟩ := e
      simp only [List.map_cons, List.mem_cons, not_or] at h
      simp only [upsert, if_neg (Ne.symm h.1), ih h.2, List.cons_append]

/-- The second of two values stored under one key stays. -/
theorem upsert_upsert (key : String) (value other : α) (entries : List (String × α)) :
    upsert key other (upsert key value entries) = upsert key other entries := by
  induction entries with
  | nil => simp [upsert]
  | cons e rest ih =>
      obtain ⟨k, v⟩ := e
      by_cases h : k = key <;> simp [upsert, h, ih]

theorem eraseDups_of_nodup {xs : List String} (h : xs.Nodup) : xs.eraseDups = xs := by
  induction xs with
  | nil => rfl
  | cons x rest ih =>
      obtain ⟨hnew, hrest⟩ := List.nodup_cons.mp h
      have hfilter : (rest.filter fun y => !y == x) = rest := by
        rw [List.filter_eq_self]
        intro y hy
        simpa using fun heq : y = x => hnew (heq ▸ hy)
      rw [List.eraseDups_cons, hfilter, ih hrest]

namespace OrdSet

theorem toList_insertAll (s : OrdSet) (xs : List String) :
    (s.insertAll xs).toList = s.toList ++ (xs.removeAll s.toList).eraseDups := by
  induction xs generalizing s with
  | nil => simp [insertAll]
  | cons x rest ih =>
      change ((s.insert x).insertAll rest).toList = _
      rw [ih, insert, List.cons_removeAll]
      by_cases hmem : x ∈ s.toList
      · rw [dif_pos hmem, if_neg (by simpa using hmem)]
      · have hrest : rest.removeAll (s.toList ++ [x]) =
            (rest.removeAll s.toList).filter fun y => !y == x := by
          rw [List.removeAll, List.removeAll, List.filter_filter]
          apply List.filter_congr
          intro y _
          by_cases heq : y = x <;> simp [heq]
        rw [dif_neg hmem, if_pos (by simpa using hmem), hrest, List.eraseDups_cons,
          List.append_assoc, List.singleton_append]

theorem toList_ofList (xs : List String) : (ofList xs).toList = xs.eraseDups := by
  rw [ofList, toList_insertAll]
  simp [empty, List.removeAll]

theorem count_toList (s : OrdSet) (x : String) :
    s.toList.count x = (decide (x ∈ s)).toNat := by
  rw [s.nodup.count]
  by_cases h : x ∈ s <;> simp [h]

end OrdSet

namespace OrdMap

theorem insert_insert (m : OrdMap α) (key : String) (value other : α) :
    (m.insert key value).insert key other = m.insert key other :=
  ext (upsert_upsert key value other m.toList)

theorem get?_eq_some_iff {m : OrdMap α} {key : String} {value : α} :
    m.get? key = some value ↔ (key, value) ∈ m.toList :=
  lookup_eq_some_iff_mem m.nodup_keys key value

theorem contains_iff {m : OrdMap α} {key : String} : m.contains key = true ↔ key ∈ m.keys := by
  simp only [contains, get?, keys, List.lookup_isSome_iff, List.mem_map, beq_iff_eq]
  constructor
  · rintro ⟨entry, hmem, rfl⟩
    exact ⟨entry, hmem, rfl⟩
  · rintro ⟨entry, hmem, rfl⟩
    exact ⟨entry, hmem, rfl⟩

theorem get?_eq_none_iff {m : OrdMap α} {key : String} : m.get? key = none ↔ key ∉ m.keys := by
  rw [← contains_iff, contains, Bool.not_eq_true, Option.isSome_eq_false_iff,
    Option.isNone_iff_eq_none]

theorem mem_keys_iff {m : OrdMap α} {key : String} :
    key ∈ m.keys ↔ ∃ value, m.get? key = some value := by
  rw [← contains_iff, contains, Option.isSome_iff_exists]

theorem mem_values_iff {m : OrdMap α} {value : α} :
    value ∈ m.values ↔ ∃ key, m.get? key = some value := by
  simp only [values, List.mem_map, get?_eq_some_iff]
  constructor
  · rintro ⟨⟨key, _⟩, hmem, rfl⟩
    exact ⟨key, hmem⟩
  · rintro ⟨key, hmem⟩
    exact ⟨(key, value), hmem, rfl⟩

theorem get?_of_mem_values {m : OrdMap α} {name : α → String}
    (hname : ∀ entry ∈ m.toList, name entry.2 = entry.1) {value : α} (h : value ∈ m.values) :
    m.get? (name value) = some value := by
  obtain ⟨key, hget⟩ := mem_values_iff.mp h
  have hkey : name value = key := hname (key, value) (get?_eq_some_iff.mp hget)
  rw [hkey, hget]

theorem map_values_of_named {m : OrdMap α} {name : α → String}
    (hname : ∀ entry ∈ m.toList, name entry.2 = entry.1) : m.values.map name = m.keys := by
  simp only [values, keys, List.map_map]
  exact List.map_congr_left hname

/-- A value that is stored under its own name keeps every value under its own name. -/
theorem named_insert {m : OrdMap α} {name : α → String}
    (hname : ∀ entry ∈ m.toList, name entry.2 = entry.1) (value : α) :
    ∀ entry ∈ (m.insert (name value) value).toList, name entry.2 = entry.1 := by
  intro entry hentry
  have hget := get?_eq_some_iff.mpr hentry
  rw [get?_insert] at hget
  split at hget
  · rename_i hkey
    rw [hkey, ← Option.some.inj hget]
  · exact hname entry (get?_eq_some_iff.mp hget)

theorem toList_insertAll {m : OrdMap α} {entries : List (String × α)}
    (h : (m.keys ++ entries.map Prod.fst).Nodup) :
    (m.insertAll entries).toList = m.toList ++ entries := by
  induction entries generalizing m with
  | nil => simp [insertAll]
  | cons e rest ih =>
      have hnew : e.1 ∉ m.toList.map Prod.fst := by
        intro hmem
        exact (List.nodup_append.mp h).2.2 _ hmem e.1 (by simp) rfl
      have hlist : (m.insert e.1 e.2).toList = m.toList ++ [e] := upsert_of_notMem e.2 hnew
      have hkeys : (m.insert e.1 e.2).keys = m.keys ++ [e.1] := by
        rw [keys, hlist, List.map_append, ← keys]
        rfl
      change ((m.insert e.1 e.2).insertAll rest).toList = _
      rw [ih (by simpa [hkeys] using h), hlist]
      simp

theorem toList_ofList {entries : List (String × α)} (h : (entries.map Prod.fst).Nodup) :
    (ofList entries).toList = entries := by
  rw [ofList, toList_insertAll (by simpa [keys, empty] using h)]
  rfl

theorem mem_keys_insertAll {m : OrdMap α} {entries : List (String × α)} {key : String} :
    key ∈ (m.insertAll entries).keys ↔ key ∈ m.keys ∨ key ∈ entries.map Prod.fst := by
  induction entries generalizing m with
  | nil => simp [insertAll]
  | cons e rest ih =>
      have hkeys : key ∈ (m.insert e.1 e.2).keys ↔ key ∈ m.keys ∨ key = e.1 := by
        rw [keys_insert]
        split
        · rename_i hmem
          exact ⟨Or.inl, fun h => h.elim id fun heq => heq ▸ hmem⟩
        · rw [List.mem_append, List.mem_singleton]
      change key ∈ ((m.insert e.1 e.2).insertAll rest).keys ↔ _
      rw [ih, hkeys, List.map_cons, List.mem_cons, or_assoc]

theorem mem_keys_ofList {entries : List (String × α)} {key : String} :
    key ∈ (ofList entries).keys ↔ key ∈ entries.map Prod.fst :=
  mem_keys_insertAll.trans (or_iff_right List.not_mem_nil)

theorem get?_insertAll_map (m : OrdMap α) (f : String → α) (names : List String) (key : String) :
    (m.insertAll (names.map fun name => (name, f name))).get? key =
      if key ∈ names then some (f key) else m.get? key := by
  induction names generalizing m with
  | nil => simp [insertAll]
  | cons name rest ih =>
      change ((m.insert name (f name)).insertAll (rest.map fun name => (name, f name))).get? key = _
      rw [ih, get?_insert]
      by_cases hkey : key = name <;> simp [hkey]

theorem toList_insertIfNew (m : OrdMap α) (key : String) (value : α) :
    (m.insertIfNew key value).toList =
      m.toList ++ if key ∈ m.keys then [] else [(key, value)] := by
  unfold insertIfNew
  by_cases hkey : key ∈ m.keys
  · simp [contains_iff, hkey]
  · rw [if_neg (mt contains_iff.mp hkey), if_neg hkey]
    exact upsert_of_notMem value hkey

theorem mem_toList_insertIfNew {m : OrdMap α} {key : String} {value : α} {entry : String × α}
    (h : entry ∈ (m.insertIfNew key value).toList) : entry ∈ m.toList ∨ entry = (key, value) := by
  rw [toList_insertIfNew, List.mem_append] at h
  apply h.imp_right
  split <;> simp

theorem get?_eq_of_perm {m n : OrdMap α} (h : m.toList.Perm n.toList) (key : String) :
    m.get? key = n.get? key := by
  apply Option.ext
  intro value
  rw [get?_eq_some_iff, get?_eq_some_iff, h.mem_iff]

theorem toList_eq_filterMap (m : OrdMap α) :
    m.toList = m.keys.filterMap fun key => (m.get? key).map fun value => (key, value) := by
  have hentry : ∀ entry ∈ m.toList,
      (m.get? entry.1).map (fun value => (entry.1, value)) = some entry := by
    intro entry hmem
    rw [get?_eq_some_iff.mpr hmem, Option.map_some]
  rw [keys, List.filterMap_map]
  exact ((List.filterMap_congr hentry).trans (List.filterMap_some)).symm

/-- A map is told by its keys, in order, and by what it holds under each of them. -/
theorem eq_of_get?_eq {m n : OrdMap α} (hkeys : m.keys = n.keys)
    (hget : ∀ key, m.get? key = n.get? key) : m = n := by
  ext1
  rw [toList_eq_filterMap, toList_eq_filterMap, hkeys]
  simp only [hget]

/-! ### Entries that hold a property, and changed values -/

/-- The entries whose values satisfy `p`. -/
def filter (m : OrdMap α) (p : α → Bool) : OrdMap α :=
  ⟨m.toList.filter fun entry => p entry.2,
    m.nodup_keys.sublist (List.filter_sublist.map Prod.fst)⟩

theorem values_filter (m : OrdMap α) (p : α → Bool) : (m.filter p).values = m.values.filter p := by
  rw [values, values, List.filter_map]
  rfl

theorem get?_filter (m : OrdMap α) (p : α → Bool) (key : String) :
    (m.filter p).get? key = (m.get? key).filter p := by
  apply Option.ext
  intro value
  simp only [get?_eq_some_iff, Option.filter_eq_some_iff, filter, List.mem_filter]

/-- The map with nothing under a key. -/
def erase (m : OrdMap α) (key : String) : OrdMap α :=
  ofList (m.toList.filter (·.1 ≠ key))

theorem get?_erase (m : OrdMap α) (key other : String) :
    (m.erase key).get? other = if other = key then none else m.get? other := by
  have hnodup : ((m.toList.filter (·.1 ≠ key)).map Prod.fst).Nodup :=
    m.nodup_keys.sublist (List.filter_sublist.map Prod.fst)
  ext value
  rw [get?_eq_some_iff, erase, toList_ofList hnodup, List.mem_filter, ← get?_eq_some_iff]
  by_cases heq : other = key <;> simp [heq]

/-- The map with `f` applied to every value. -/
def mapValues (m : OrdMap α) (f : α → β) : OrdMap β :=
  ⟨m.toList.map fun entry => (entry.1, f entry.2), by
    simpa [Function.comp_def] using m.nodup_keys⟩

theorem values_mapValues (m : OrdMap α) (f : α → β) : (m.mapValues f).values = m.values.map f := by
  simp [values, mapValues]

theorem get?_mapValues (m : OrdMap α) (f : α → β) (key : String) :
    (m.mapValues f).get? key = (m.get? key).map f := by
  apply Option.ext
  intro value
  rw [get?_eq_some_iff, Option.map_eq_some_iff]
  constructor
  · intro hmem
    obtain ⟨⟨_, found⟩, hfound, heq⟩ := List.mem_map.mp hmem
    obtain ⟨rfl, rfl⟩ := Prod.mk.inj heq
    exact ⟨found, get?_eq_some_iff.mpr hfound, rfl⟩
  · rintro ⟨found, hget, rfl⟩
    exact List.mem_map.mpr ⟨(key, found), get?_eq_some_iff.mp hget, rfl⟩

/-- The keys as a set. -/
def keySet (m : OrdMap α) : OrdSet := ⟨m.keys, m.nodup_keys⟩

theorem keySet_insert (m : OrdMap α) (key : String) (value : α) :
    (m.insert key value).keySet = m.keySet.insert key := by
  ext1
  change (m.insert key value).keys = _
  rw [keys_insert, OrdSet.insert]
  split
  · rename_i hkey
    rw [dif_pos (show key ∈ m.keySet.toList from hkey)]
    rfl
  · rename_i hkey
    rw [dif_neg (show key ∉ m.keySet.toList from hkey)]
    rfl

theorem keySet_insertAll (m : OrdMap α) (entries : List (String × α)) :
    (m.insertAll entries).keySet = m.keySet.insertAll (entries.map Prod.fst) := by
  induction entries generalizing m with
  | nil => rfl
  | cons e rest ih =>
      change ((m.insert e.1 e.2).insertAll rest).keySet = _
      rw [ih, keySet_insert]
      rfl

theorem keys_ofList (entries : List (String × α)) :
    (ofList entries).keys = (entries.map Prod.fst).eraseDups := by
  rw [← OrdSet.toList_ofList]
  exact congrArg OrdSet.toList (keySet_insertAll empty entries)

/-- The map with `f` applied to the value under a key, if there is one. -/
def modify (m : OrdMap α) (key : String) (f : α → α) : OrdMap α :=
  match m.get? key with
  | some value => m.insert key (f value)
  | none => m

theorem get?_modify (m : OrdMap α) (key other : String) (f : α → α) :
    (m.modify key f).get? other = if other = key then (m.get? other).map f else m.get? other := by
  unfold modify
  split
  · rename_i value hget
    rw [get?_insert]
    split
    · rename_i heq
      rw [heq, hget, Option.map_some]
    · rfl
  · rename_i hget
    split
    · rename_i heq
      rw [heq, hget, Option.map_none]
    · rfl

theorem keys_modify (m : OrdMap α) (key : String) (f : α → α) : (m.modify key f).keys = m.keys := by
  unfold modify
  split
  · rename_i value hget
    rw [keys_insert, if_pos (mem_keys_iff.mpr ⟨value, hget⟩)]
  · rfl

theorem modify_id (m : OrdMap α) (key : String) : m.modify key id = m := by
  refine eq_of_get?_eq (m.keys_modify key id) fun other => ?_
  rw [get?_modify, Option.map_id_fun, id_eq, ite_self]

/-! ### Entries under new keys -/

/-- Inserts the entries one after the other, those under a present key left out. -/
def insertNew (m : OrdMap α) (entries : List (String × α)) : OrdMap α :=
  entries.foldl (fun m entry => m.insertIfNew entry.1 entry.2) m

theorem insertNew_append (m : OrdMap α) (entries others : List (String × α)) :
    m.insertNew (entries ++ others) = (m.insertNew entries).insertNew others :=
  List.foldl_append

theorem mem_toList_insertNew {m : OrdMap α} {entries : List (String × α)} {entry : String × α}
    (h : entry ∈ (m.insertNew entries).toList) : entry ∈ m.toList ∨ entry ∈ entries := by
  induction entries generalizing m with
  | nil => exact Or.inl h
  | cons first rest ih =>
      rcases ih h with hbefore | hlater
      · rcases mem_toList_insertIfNew hbefore with hold | rfl
        · exact Or.inl hold
        · exact Or.inr List.mem_cons_self
      · exact Or.inr (List.mem_cons_of_mem _ hlater)

theorem toList_insertNew {entries : List (String × α)} (h : (entries.map Prod.fst).Nodup)
    (m : OrdMap α) :
    (m.insertNew entries).toList = m.toList ++ entries.filter fun entry => entry.1 ∉ m.keys := by
  induction entries generalizing m with
  | nil => simp [insertNew]
  | cons entry rest ih =>
      obtain ⟨hnew, hrest⟩ := List.nodup_cons.mp h
      have hlist := m.toList_insertIfNew entry.1 entry.2
      -- the entry just inserted has none of the keys that follow
      have hkeys : ∀ later ∈ rest,
          (later.1 ∈ (m.insertIfNew entry.1 entry.2).keys ↔ later.1 ∈ m.keys) := by
        intro later hlater
        have hne : later.1 ≠ entry.1 := fun heq => hnew (heq ▸ List.mem_map_of_mem hlater)
        rw [keys, hlist, List.map_append, List.mem_append, ← keys]
        apply or_iff_left
        split <;> simp [hne]
      change ((m.insertIfNew entry.1 entry.2).insertNew rest).toList = _
      rw [ih hrest, hlist, List.append_assoc, List.filter_cons]
      congr 1
      have hfilter : (rest.filter fun later => later.1 ∉ (m.insertIfNew entry.1 entry.2).keys) =
          rest.filter fun later => later.1 ∉ m.keys := by
        apply List.filter_congr
        intro later hlater
        rw [decide_eq_decide, hkeys later hlater]
      rw [hfilter]
      by_cases hkey : entry.1 ∈ m.keys <;> simp [hkey]

end OrdMap

end SelectionCompiler
