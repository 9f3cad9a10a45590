import SelectionCompiler.Files.Tree
import SelectionCompiler.Proofs.Files.Path
import SelectionCompiler.Proofs.OrdMap

/-!
What a path leads to in a tree, before and after a file is stored or moved. Where a path leads
to depends on the directories of a tree only, and a file never takes the place of a directory.
-/

namespace SelectionCompiler

theorem bind_eq_ok_iff {ε α β : Type} {x : Except ε α} {f : α → Except ε β} {b : β} :
    x >>= f = .ok b ↔ ∃ a, x = .ok a ∧ f a = .ok b := by
  cases x with
  | error e => simp [bind, Except.bind]
  | ok a => simp [bind, Except.bind]

namespace FileTree

variable {t t' : FileTree} {path other name : String}
  {location elsewhere before names rest : List String} {contents : ByteArray} {node : Option Node}

/-! ### Where a path leads to -/

/-- How names lead from a directory to a location: up, to a last name, which need not be there,
and through directories. -/
inductive Leads (t : FileTree) : List String → List String → List String → Prop where
  | here (location : List String) : Leads t location [] location
  | up {before rest location : List String} (hbefore : before ≠ [])
      (hrest : Leads t before.dropLast rest location) : Leads t before (".." :: rest) location
  | last {before : List String} {name : String} (hname : name ≠ "..")
      (hsize : name.utf8ByteSize ≤ maxName) : Leads t before [name] (before ++ [name])
  | through {before rest location : List String} {name : String} (hname : name ≠ "..")
      (hsize : name.utf8ByteSize ≤ maxName) (hne : rest ≠ [])
      (hdirectory : t.nodes.get? ("/".intercalate (before ++ [name])) = some .directory)
      (hrest : Leads t (before ++ [name]) rest location) : Leads t before (name :: rest) location

theorem leads_of_follow (h : t.follow before names = .ok location) :
    t.Leads before names location := by
  fun_induction follow t before names with
  | case1 =>
      cases h
      exact .here _
  | case2 => cases h
  | case3 rest name before ih => exact .up (List.cons_ne_nil _ _) (ih h)
  | case4 => cases h
  | case5 before name rest hname hsize next hempty =>
      obtain rfl : before ++ [name] = location := Except.ok.inj h
      obtain rfl := List.isEmpty_iff.mp hempty
      exact .last hname (Nat.le_of_not_lt hsize)
  | case6 before name rest hname hsize next hne hdirectory ih =>
      exact .through hname (Nat.le_of_not_lt hsize) (mt List.isEmpty_iff.mpr hne) hdirectory
        (ih h)
  | case7 => cases h
  | case8 => cases h

theorem Leads.follow_eq (h : t.Leads before names location) :
    t.follow before names = .ok location := by
  induction h with
  | here => rw [follow]
  | @up before rest location hbefore _ ih =>
      match before with
      | _ :: _ => simpa [follow] using ih
  | last hname hsize => simp [follow, hname, Nat.not_lt.mpr hsize]
  | through hname hsize hne hdirectory _ ih =>
      simp [follow, hname, Nat.not_lt.mpr hsize, hne, hdirectory, ih]

theorem Leads.slashless (h : t.Leads before names location) (hbefore : Path.Slashless before)
    (hnames : Path.Slashless names) : Path.Slashless location := by
  have hnext {before rest : List String} {name : String} (hbefore : Path.Slashless before)
      (hnames : Path.Slashless (name :: rest)) : Path.Slashless (before ++ [name]) := by
    intro other hother
    rcases List.mem_append.mp hother with hold | hnew
    · exact hbefore other hold
    · exact hnames other (List.mem_singleton.mp hnew ▸ List.mem_cons_self)
  induction h with
  | here => exact hbefore
  | up _ _ ih =>
      exact ih (fun name hname => hbefore name ((List.dropLast_subset _) hname))
        fun name hname => hnames name (List.mem_cons_of_mem _ hname)
  | last => exact hnext hbefore hnames
  | through _ _ _ _ _ ih =>
      exact ih (hnext hbefore hnames) fun name hname => hnames name (List.mem_cons_of_mem _ hname)

theorem Leads.getLast? (h : t.Leads before names location) (hlast : names.getLast? = some name)
    (hname : name ≠ "..") : location.getLast? = some name := by
  have hrest {other : String} {rest : List String} (hother : other ≠ name ∨ rest ≠ [])
      (hlast : (other :: rest).getLast? = some name) : rest.getLast? = some name := by
    match rest with
    | [] => exact absurd (by simpa using hlast) (hother.resolve_right (· rfl))
    | _ :: _ => rwa [List.getLast?_cons_cons] at hlast
  induction h with
  | here => cases hlast
  | up _ _ ih => exact ih (hrest (.inl hname.symm) hlast)
  | last => simpa using hlast
  | through _ _ hne _ _ ih => exact ih (hrest (.inr hne) hlast)

/-- Whether two trees have the same directories. -/
def SameDirectories (t t' : FileTree) : Prop :=
  ∀ key, t.nodes.get? key = some .directory ↔ t'.nodes.get? key = some .directory

theorem Leads.mono (h : t.Leads before names location) (hsame : t.SameDirectories t') :
    t'.Leads before names location := by
  induction h with
  | here location => exact .here location
  | up hbefore _ ih => exact .up hbefore ih
  | last hname hsize => exact .last hname hsize
  | through hname hsize hne hdirectory _ ih =>
      exact .through hname hsize hne ((hsame _).mp hdirectory) ih

/-- Whether a path has a form that can lead to a location in a tree. -/
def IsInside (path : String) : Prop :=
  path.contains '\x00' = false ∧ path.startsWith "/" = false ∧ path ≠ ""

theorem locate_eq_ok_iff :
    t.locate path = .ok location ↔ IsInside path ∧ t.Leads [] (Path.segments path) location := by
  constructor
  · intro h
    simp only [locate] at h
    split at h
    · cases h
    · rename_i hnul
      split at h
      · cases h
      · rename_i hroot
        split at h
        · cases h
        · rename_i hne
          exact ⟨⟨by simpa using hnul, by simpa using hroot, hne⟩, leads_of_follow h⟩
  · rintro ⟨⟨hnul, hroot, hne⟩, h⟩
    simp [locate, hnul, hroot, hne, h.follow_eq]

theorem locate_of_sameDirectories (hsame : t.SameDirectories t') :
    t.locate path = .ok location ↔ t'.locate path = .ok location := by
  rw [locate_eq_ok_iff, locate_eq_ok_iff]
  exact and_congr_right' ⟨(·.mono hsame), (·.mono fun key => (hsame key).symm)⟩

theorem slashless_of_locate (h : t.locate path = .ok location) : Path.Slashless location :=
  (locate_eq_ok_iff.mp h).2.slashless (fun _ hname => nomatch hname)
    (Path.slashless_segments path)

/-- What a path leads to, if anything is there. -/
def find? (t : FileTree) (path : String) : Option Node :=
  match t.locate path with
  | .ok location => t.node? location
  | .error _ => none

/-- Whether two paths lead to one location. -/
def SamePlace (t : FileTree) (path other : String) : Prop :=
  ∃ location, t.locate path = .ok location ∧ t.locate other = .ok location

theorem find?_of_locate (h : t.locate path = .ok location) : t.find? path = t.node? location := by
  rw [find?, h]

/-- The directories of a tree say where a path leads to. -/
theorem find?_of_sameDirectories (hsame : t.SameDirectories t') :
    t'.find? path =
      match t.locate path with
      | .ok location => t'.node? location
      | .error _ => none := by
  match hlocate : t.locate path with
  | .ok location => exact find?_of_locate ((locate_of_sameDirectories hsame).mp hlocate)
  | .error _ =>
      match hlocate' : t'.locate path with
      | .ok location =>
          rw [(locate_of_sameDirectories hsame).mpr hlocate'] at hlocate
          cases hlocate
      | .error _ => rw [find?, hlocate']

/-! ### Where a file can be -/

theorem place_eq_ok_iff :
    t.place path = .ok location ↔
      t.locate path = .ok location ∧ t.node? location ≠ some .directory ∧
        meansDirectory path = false := by
  constructor
  · intro h
    obtain ⟨found, hlocate, hrest⟩ := bind_eq_ok_iff.mp h
    split at hrest
    · cases hrest
    · rename_i hnode
      split at hrest
      · cases hrest
      · rename_i hmeans
        cases hrest
        exact ⟨hlocate, hnode, by simpa using hmeans⟩
  · rintro ⟨hlocate, hnode, hmeans⟩
    refine bind_eq_ok_iff.mpr ⟨location, hlocate, ?_⟩
    split
    · exact absurd ‹_› hnode
    · simp [hmeans, pure, Except.pure]

theorem destination_eq_ok_iff :
    t.destination path = .ok location ↔
      t.locate path = .ok location ∧ t.node? location ≠ some .directory ∧
        Path.endsInDots path = false ∧ path.endsWith "/" = false := by
  constructor
  · intro h
    obtain ⟨found, hlocate, hrest⟩ := bind_eq_ok_iff.mp h
    split at hrest
    · cases hrest
    · cases hrest
    · cases hrest
    · rename_i hdots
      split at hrest
      · cases hrest
      · rename_i hslash
        split at hrest
        · cases hrest
        · rename_i hnode
          cases hrest
          exact ⟨hlocate, by simpa using hnode, hdots, by simpa using hslash⟩
  · rintro ⟨hlocate, hnode, hdots, hslash⟩
    refine bind_eq_ok_iff.mpr ⟨location, hlocate, ?_⟩
    rw [hdots, hslash]
    simp [pure, Except.pure]

/-- Whether a file is at a location, or can be made there. -/
structure CanHold (t : FileTree) (location : List String) : Prop where
  noDirectory : t.node? location ≠ some .directory
  slashless : Path.Slashless location

theorem CanHold.ne_nil (h : t.CanHold location) : location ≠ [] := by
  rintro rfl
  exact h.noDirectory rfl

theorem canHold_of_place (h : t.place path = .ok location) : t.CanHold location :=
  have hplace := place_eq_ok_iff.mp h
  ⟨hplace.2.1, slashless_of_locate hplace.1⟩

theorem canHold_of_destination (h : t.destination path = .ok location) : t.CanHold location :=
  have htarget := destination_eq_ok_iff.mp h
  ⟨htarget.2.1, slashless_of_locate htarget.1⟩

theorem locate_of_place (h : t.place path = .ok location) : t.locate path = .ok location :=
  (place_eq_ok_iff.mp h).1

theorem locate_of_destination (h : t.destination path = .ok location) :
    t.locate path = .ok location :=
  (destination_eq_ok_iff.mp h).1

/-! ### One node changed -/

/-- Whether the second tree is the first but for the node at a location. -/
def Changes (t t' : FileTree) (location : List String) (node : Option Node) : Prop :=
  ∀ key, t'.nodes.get? key = if key = "/".intercalate location then node else t.nodes.get? key

theorem node?_eq_of_ne_nil (h : location ≠ []) :
    t.node? location = t.nodes.get? ("/".intercalate location) := by
  rw [node?, if_neg (by simpa using h)]

theorem Changes.node?_eq (h : t.Changes t' location node)
    (hlocation : t.CanHold location) (helsewhere : Path.Slashless elsewhere) :
    t'.node? elsewhere = if elsewhere = location then node else t.node? elsewhere := by
  by_cases hempty : elsewhere = []
  · rw [hempty, if_neg hlocation.ne_nil.symm]
    rfl
  · rw [node?_eq_of_ne_nil hempty, node?_eq_of_ne_nil hempty, h]
    apply if_congr _ rfl rfl
    exact ⟨Path.eq_of_intercalate_eq hempty hlocation.ne_nil helsewhere hlocation.slashless,
      congrArg _⟩

theorem Changes.sameDirectories (h : t.Changes t' location node)
    (hlocation : t.CanHold location) (hnode : node ≠ some .directory) :
    t.SameDirectories t' := by
  intro key
  rw [h]
  split
  · rename_i heq
    rw [heq, ← node?_eq_of_ne_nil hlocation.ne_nil]
    exact iff_of_false hlocation.noDirectory hnode
  · rfl

theorem Changes.find?_eq (h : t.Changes t' location node)
    (hlocation : t.CanHold location) (hnode : node ≠ some .directory) :
    t'.find? path = if t.locate path = .ok location then node else t.find? path := by
  rw [find?_of_sameDirectories (h.sameDirectories hlocation hnode), find?]
  match hlocate : t.locate path with
  | .ok found =>
      simp only [Except.ok.injEq]
      exact h.node?_eq hlocation (slashless_of_locate hlocate)
  | .error _ => rfl

theorem Changes.canHold (h : t.Changes t' location node)
    (hlocation : t.CanHold location) (hnode : node ≠ some .directory)
    (helsewhere : t.CanHold elsewhere) : t'.CanHold elsewhere := by
  refine ⟨?_, helsewhere.slashless⟩
  rw [h.node?_eq hlocation helsewhere.slashless]
  split
  · exact hnode
  · exact helsewhere.noDirectory

/-! ### Storing a file -/

/-- The tree with a file at a location. -/
def stored (t : FileTree) (location : List String) (contents : ByteArray) : FileTree :=
  ⟨t.nodes.insert ("/".intercalate location) (.file contents)⟩

theorem changes_stored : t.Changes (t.stored location contents) location (some (.file contents)) :=
  fun key => OrdMap.get?_insert t.nodes _ key _

theorem find?_stored (h : t.CanHold location) :
    (t.stored location contents).find? path =
      if t.locate path = .ok location then some (.file contents) else t.find? path :=
  changes_stored.find?_eq h nofun

/-- A second file at a location takes the place of the first. -/
theorem stored_stored (more : ByteArray) :
    (t.stored location contents).stored location more = t.stored location more := by
  rw [stored, stored, OrdMap.insert_insert, ← stored]

theorem put_eq (t : FileTree) (path : String) (contents : ByteArray) :
    t.put path contents = (t.place path).map fun location => t.stored location contents := by
  unfold put
  cases t.place path with
  | error e => rfl
  | ok location => rfl

/-- A file can be stored where one has just been stored. -/
theorem place_stored (h : t.place path = .ok location) :
    (t.stored location contents).place path = .ok location := by
  have hlocation := canHold_of_place h
  have hsame : t.SameDirectories (t.stored location contents) :=
    changes_stored.sameDirectories hlocation nofun
  obtain ⟨hlocate, -, hmeans⟩ := place_eq_ok_iff.mp h
  exact place_eq_ok_iff.mpr ⟨(locate_of_sameDirectories hsame).mp hlocate,
    (changes_stored.canHold hlocation nofun hlocation).noDirectory, hmeans⟩

theorem put_stored (h : t.place path = .ok location) (more : ByteArray) :
    (t.stored location contents).put path more = .ok (t.stored location more) := by
  rw [put_eq, place_stored h, Except.map, stored_stored]

theorem read_stored (h : t.place path = .ok location) :
    (t.stored location contents).read path = .ok contents := by
  have hlocation := canHold_of_place h
  have hplace : (t.stored location contents).place path = .ok location := place_stored h
  obtain ⟨hlocate, -, hmeans⟩ := place_eq_ok_iff.mp hplace
  refine bind_eq_ok_iff.mpr ⟨location, hlocate, ?_⟩
  rw [changes_stored.node?_eq hlocation hlocation.slashless, if_pos rfl]
  simp [hmeans, pure, Except.pure]

/-- Where a file can be moved does not depend on what files hold. -/
theorem destination_stored (h : t.CanHold location) :
    (t.stored location contents).destination path = .ok elsewhere ↔
      t.destination path = .ok elsewhere := by
  have hsame : t.SameDirectories (t.stored location contents) :=
    changes_stored.sameDirectories h nofun
  rw [destination_eq_ok_iff, destination_eq_ok_iff, ← locate_of_sameDirectories hsame]
  apply and_congr_right
  intro hlocate
  rw [changes_stored.node?_eq h (slashless_of_locate hlocate)]
  split
  · rename_i heq
    simp [heq, h.noDirectory]
  · rfl

/-! ### Moving a file -/

/-- The tree with nothing at a location. -/
def cleared (t : FileTree) (location : List String) : FileTree :=
  ⟨t.nodes.erase ("/".intercalate location)⟩

theorem changes_cleared : t.Changes (t.cleared location) location none :=
  fun key => OrdMap.get?_erase t.nodes _ key

/-- The tree with a file moved from one location to another. -/
def moved (t : FileTree) (source target : List String) (contents : ByteArray) : FileTree :=
  if source = target then t else (t.stored target contents).cleared source

/-- What paths lead to once contents were stored at one location and moved to another. -/
theorem find?_moved {source target : String} {origin destination : List String}
    (hplace : t.place source = .ok origin) (htarget : t.destination target = .ok destination) :
    ((t.stored origin contents).moved origin destination contents).find? path =
      if t.locate path = .ok destination then some (.file contents)
      else if t.locate path = .ok origin then none
      else t.find? path := by
  have horigin := canHold_of_place hplace
  have hdestination := canHold_of_destination htarget
  have hsame : t.SameDirectories (t.stored origin contents) :=
    changes_stored.sameDirectories horigin nofun
  have hdestination' : (t.stored origin contents).CanHold destination :=
    changes_stored.canHold horigin nofun hdestination
  have hsame' : (t.stored origin contents).SameDirectories
      ((t.stored origin contents).stored destination contents) :=
    changes_stored.sameDirectories hdestination' nofun
  have horigin' : ((t.stored origin contents).stored destination contents).CanHold origin :=
    changes_stored.canHold hdestination' nofun (changes_stored.canHold horigin nofun horigin)
  by_cases heq : origin = destination
  · subst heq
    rw [moved, if_pos rfl, find?_stored horigin]
    split <;> rfl
  · rw [moved, if_neg heq, changes_cleared.find?_eq horigin' nofun, find?_stored hdestination',
      find?_stored horigin]
    simp only [← locate_of_sameDirectories hsame', ← locate_of_sameDirectories hsame]
    by_cases hlocate : t.locate path = .ok destination
    · simp [hlocate, Ne.symm heq]
    · rw [if_neg hlocate, if_neg hlocate]
      split <;> rfl

theorem move_eq {source target : String} {origin destination : List String}
    (hread : t.read source = .ok contents) (hplace : t.place source = .ok origin)
    (htarget : t.destination target = .ok destination) :
    t.move source target = .ok (t.moved origin destination contents) := by
  have hsource := canHold_of_place hplace
  have hdestination := canHold_of_destination htarget
  have hkeys : "/".intercalate origin = "/".intercalate destination ↔ origin = destination :=
    ⟨Path.eq_of_intercalate_eq hsource.ne_nil hdestination.ne_nil hsource.slashless
      hdestination.slashless, congrArg _⟩
  rw [move, hread, hplace, htarget]
  show (if "/".intercalate origin = "/".intercalate destination then Except.ok t
    else .ok ((t.stored destination contents).cleared origin)) = _
  rw [moved, apply_ite Except.ok]
  exact if_congr hkeys rfl rfl

theorem move_eq_ok_iff {source target : String} :
    t.move source target = .ok t' ↔
      ∃ contents origin destination, t.read source = .ok contents ∧
        t.place source = .ok origin ∧ t.destination target = .ok destination ∧
        t' = t.moved origin destination contents := by
  constructor
  · intro h
    obtain ⟨contents, hread, hrest⟩ := bind_eq_ok_iff.mp h
    obtain ⟨origin, hplace, hrest⟩ := bind_eq_ok_iff.mp hrest
    obtain ⟨destination, htarget, -⟩ := bind_eq_ok_iff.mp hrest
    rw [move_eq hread hplace htarget] at h
    exact ⟨contents, origin, destination, hread, hplace, htarget, (Except.ok.inj h).symm⟩
  · rintro ⟨contents, origin, destination, hread, hplace, htarget, rfl⟩
    exact move_eq hread hplace htarget

end FileTree

end SelectionCompiler
