import SelectionCompiler.Proofs.Files.Tree

/-!
What replacing a file leaves behind, whatever step fails. The file has its old contents and the
failure is reported, or it has the new contents; nothing but the file and its sibling changes,
and the sibling is gone once the file is replaced.

The sibling of a file whose extension is `tmp` is the file itself, which is then written in its
own place: a step that fails can leave it with a part of the new contents.
-/

namespace SelectionCompiler.FileTree

open Disk

variable {t : FileTree} {path other : String} {origin location : List String}
  {contents : ByteArray} {fault : Option Fault}

/-! ### The steps -/

/-- What replacing a file in a tree answers, and the tree that it leaves. -/
def replaced (t : FileTree) (fault : Option Fault) (path : String) (contents : ByteArray) :
    Except FileError Unit × FileTree :=
  ((disk fault).replace path contents).run.run t

/-- Goes on with the tree that a step has left, unless it failed. -/
def andThen (before : Except FileError Unit × FileTree)
    (next : FileTree → Except FileError Unit × FileTree) : Except FileError Unit × FileTree :=
  match before with
  | (.ok (), t) => next t
  | (.error e, t) => (.error e, t)

theorem andThen_ok (t : FileTree) (next : FileTree → Except FileError Unit × FileTree) :
    andThen (.ok (), t) next = next t := rfl

theorem andThen_error (e : FileError) (t : FileTree)
    (next : FileTree → Except FileError Unit × FileTree) :
    andThen (.error e, t) next = (.error e, t) := rfl

theorem mk_bind_run (step : StateM FileTree (Except FileError Unit))
    (rest : Unit → ExceptT FileError (StateM FileTree) Unit) :
    (ExceptT.mk step >>= rest).run t = andThen (step t) fun t => (rest ()).run t := by
  simp only [ExceptT.run, bind, ExceptT.bind, ExceptT.mk, StateT.bind, ExceptT.bindCont]
  match step t with
  | (.ok (), t') => rfl
  | (.error e, t') => rfl

theorem replaced_steps :
    t.replaced fault path contents =
      andThen ((disk fault).create (sibling path) t) fun t =>
      andThen ((disk fault).write (sibling path) contents t) fun t =>
      andThen ((disk fault).sync (sibling path) t) fun t =>
      (disk fault).rename (sibling path) path t := by
  simp only [replaced, StateT.run, replace, mk_bind_run, ExceptT.run_mk]

theorem attempt_ok (t t' : FileTree) : attempt (.ok t') t = (.ok (), t') := rfl

theorem create_apply :
    (disk fault).create path t =
      if fault = some .create then (.error (.other "create"), t)
      else attempt (t.put path ByteArray.empty) t := by
  show (if fault = some .create then _ else _ : StateM FileTree (Except FileError Unit)) t = _
  split
  · rfl
  · rfl

theorem write_apply (h : ∀ kept, fault ≠ some (.write kept)) :
    (disk fault).write path contents t = attempt (t.put path contents) t := by
  match fault with
  | some (.write kept) => exact absurd rfl (h kept)
  | none | some .create | some .sync | some .rename => rfl

theorem write_fault (kept : Nat) :
    (disk (some (.write kept))).write path contents t =
      (.error (.other "write"), (attempt (t.put path (contents.extract 0 kept)) t).2) := by
  show (match attempt (t.put path (contents.extract 0 kept)) t with
    | (_, t) => (Except.error (FileError.other "write"), t)) = _
  rfl

theorem sync_apply :
    (disk fault).sync path t =
      if fault = some .sync then (.error (.other "sync"), t) else (.ok (), t) := by
  show ((if fault = some .sync then _ else _ : Except FileError Unit), t) = _
  split
  · rfl
  · rfl

theorem rename_apply :
    (disk fault).rename path other t =
      if fault = some .rename then (.error (.other "rename"), t)
      else attempt (t.move path other) t := by
  show (if fault = some .rename then _ else _ : StateM FileTree (Except FileError Unit)) t = _
  split
  · rfl
  · rfl

/-! ### What the steps leave -/

/-- What replacing a file can answer and leave: nothing has changed, or a part of the contents or
all of them are in the sibling, or the sibling has taken the place of the file. -/
inductive Outcome (t : FileTree) (fault : Option Fault) (path : String) (contents : ByteArray) :
    Except FileError Unit × FileTree → Prop where
  | untouched (e : FileError) : Outcome t fault path contents (.error e, t)
  | unfinished {origin : List String} (e : FileError) (kept : Nat)
      (hplace : t.place (sibling path) = .ok origin) :
      Outcome t fault path contents (.error e, t.stored origin (contents.extract 0 kept))
  | finished {origin destination : List String} (hfault : fault = none)
      (hplace : t.place (sibling path) = .ok origin)
      (htarget : t.destination path = .ok destination) :
      Outcome t fault path contents
        (.ok (), (t.stored origin contents).moved origin destination contents)

theorem Outcome.all (e : FileError) (hplace : t.place (sibling path) = .ok origin) :
    Outcome t fault path contents (.error e, t.stored origin contents) := by
  have h : Outcome t fault path contents
      (.error e, t.stored origin (contents.extract 0 contents.size)) :=
    .unfinished e contents.size hplace
  rwa [ByteArray.extract_zero_size] at h

/-- What is left to do once the contents are in the sibling. -/
theorem replaced_written (hplace : t.place (sibling path) = .ok origin)
    (hcreate : fault ≠ some .create) (hwrite : ∀ kept, fault ≠ some (.write kept)) :
    t.replaced fault path contents =
      andThen ((disk fault).sync (sibling path) (t.stored origin contents)) fun t =>
        (disk fault).rename (sibling path) path t := by
  rw [replaced_steps, create_apply, if_neg hcreate, put_eq, hplace, Except.map, attempt_ok,
    andThen_ok, write_apply hwrite, put_stored hplace, attempt_ok, andThen_ok]

/-- If no step is made to fail, the contents are moved from the sibling, if it can be made. -/
theorem replaced_sound (hplace : t.place (sibling path) = .ok origin) :
    t.replaced none path contents =
      attempt ((t.stored origin contents).move (sibling path) path) (t.stored origin contents) := by
  rw [replaced_written hplace (by simp) (by simp), sync_apply, if_neg nofun, andThen_ok,
    rename_apply, if_neg nofun]

theorem outcome_sound (hplace : t.place (sibling path) = .ok origin) :
    Outcome t none path contents (t.replaced none path contents) := by
  rw [replaced_sound hplace]
  match hmove : (t.stored origin contents).move (sibling path) path with
  | .error e => exact .all e hplace
  | .ok moved =>
      obtain ⟨found, source, destination, hread, hsource, htarget, rfl⟩ := move_eq_ok_iff.mp hmove
      rw [read_stored hplace] at hread
      rw [place_stored hplace] at hsource
      cases hread
      cases hsource
      exact .finished rfl hplace ((destination_stored (canHold_of_place hplace)).mp htarget)

theorem outcome_replaced (t : FileTree) (fault : Option Fault) (path : String)
    (contents : ByteArray) : Outcome t fault path contents (t.replaced fault path contents) := by
  match hplace : t.place (sibling path) with
  | .error e =>
      rw [replaced_steps, create_apply, put_eq, hplace]
      split
      · exact .untouched _
      · exact .untouched e
  | .ok origin =>
      match fault with
      | none => exact outcome_sound hplace
      | some .create =>
          rw [replaced_steps, create_apply, if_pos rfl]
          exact .untouched _
      | some (.write kept) =>
          rw [replaced_steps, create_apply, if_neg (by simp), put_eq, hplace, Except.map,
            attempt_ok, andThen_ok, write_fault, put_stored hplace, andThen_error]
          exact .unfinished _ kept hplace
      | some .sync =>
          rw [replaced_written hplace (by simp) (by simp), sync_apply, if_pos rfl, andThen_error]
          exact .all _ hplace
      | some .rename =>
          rw [replaced_written hplace (by simp) (by simp), sync_apply, if_neg (by simp),
            andThen_ok, rename_apply, if_pos rfl]
          exact .all _ hplace

theorem replaced_eq_ok_iff :
    (t.replaced fault path contents).1 = .ok () ↔
      fault = none ∧ (∃ origin, t.place (sibling path) = .ok origin) ∧
        ∃ destination, t.destination path = .ok destination := by
  constructor
  · have houtcome := outcome_replaced t fault path contents
    generalize t.replaced fault path contents = outcome at houtcome
    intro hok
    cases houtcome with
    | untouched e => cases hok
    | unfinished e kept hplace => cases hok
    | finished hfault hplace htarget => exact ⟨hfault, ⟨_, hplace⟩, _, htarget⟩
  · rintro ⟨rfl, ⟨origin, hplace⟩, destination, htarget⟩
    have htarget' : (t.stored origin contents).destination path = .ok destination :=
      (destination_stored (canHold_of_place hplace)).mpr htarget
    rw [replaced_sound hplace,
      move_eq (read_stored hplace) (place_stored hplace) htarget', attempt_ok]

/-- If a file cannot be moved to its place, its contents stay in the sibling. -/
theorem replaced_refused (hplace : t.place (sibling path) = .ok origin)
    (hrefused : ∀ destination, t.destination path ≠ .ok destination) :
    ∃ e, t.replaced none path contents = (.error e, t.stored origin contents) := by
  rw [replaced_sound hplace]
  match hmove : (t.stored origin contents).move (sibling path) path with
  | .error e => exact ⟨e, rfl⟩
  | .ok moved =>
      obtain ⟨_, _, destination, _, _, htarget, _⟩ := move_eq_ok_iff.mp hmove
      exact absurd ((destination_stored (canHold_of_place hplace)).mp htarget)
        (hrefused destination)

/-! ### The file and its sibling -/

/-- The sibling is where the file is just when it has the same name. -/
theorem origin_eq_iff (hname : (Path.fileName? path).isSome)
    (horigin : t.locate (sibling path) = .ok origin) (hlocation : t.locate path = .ok location) :
    origin = location ↔ Path.extension? path = some "tmp" := by
  obtain ⟨last, rest, hsegments, hlast⟩ := Path.exists_reversedSegments hname
  have hextension : Path.extension? path = (Path.splitName last).2 := by
    rw [Path.extension?, Path.fileName?, hsegments]
    simp [hlast]
  have hpath := Path.segments_of_reversedSegments hsegments
  have hsibling : Path.segments (sibling path) = _ :=
    Path.segments_withExtension hsegments hlast (by decide)
  have hleads := (locate_eq_ok_iff.mp hlocation).2
  have hleads' := (locate_eq_ok_iff.mp horigin).2
  rw [hpath] at hleads
  rw [hsibling] at hleads'
  rw [hextension, ← Path.renamed_eq_iff]
  constructor
  · rintro rfl
    have hne : Path.renamed last "tmp" ≠ ".." := by
      intro heq
      have hlength := Path.length_lt_renamed last "tmp"
      rw [heq] at hlength
      exact absurd hlength (by decide)
    have hfound := hleads'.getLast? List.getLast?_concat hne
    rw [hleads.getLast? List.getLast?_concat hlast] at hfound
    exact (Option.some.inj hfound).symm
  · intro hrenamed
    rw [hrenamed] at hleads'
    exact Except.ok.inj (hleads'.follow_eq.symm.trans hleads.follow_eq)

/-- A file is as it was and the failure is reported, or it has the new contents. -/
def AllOrNothing (t : FileTree) (path : String) (contents : ByteArray)
    (outcome : Except FileError Unit × FileTree) : Prop :=
  (∃ e, outcome.1 = .error e) ∧ outcome.2.find? path = t.find? path ∨
    outcome.1 = .ok () ∧ outcome.2.find? path = some (.file contents)

/-- What can be said of every attempt to replace a file in a tree. -/
structure Replaces (t : FileTree) (fault : Option Fault) (path : String) (contents : ByteArray)
    (outcome : Except FileError Unit × FileTree) : Prop where
  /-- The file is replaced whole or not at all if it is not its own sibling. -/
  whole : Path.extension? path ≠ some "tmp" → AllOrNothing t path contents outcome
  /-- Even if it is, it has no other contents than a part of the new ones. -/
  part : AllOrNothing t path contents outcome ∨
    ∃ e kept, outcome.1 = .error e ∧
      outcome.2.find? path = some (.file (contents.extract 0 kept))
  /-- No sibling is left beside a file that was replaced. -/
  siblingGone : outcome.1 = .ok () → Path.extension? path ≠ some "tmp" →
    outcome.2.find? (sibling path) = none
  /-- Nothing but the file and its sibling changes. -/
  others : ∀ other, ¬ t.SamePlace other path → ¬ t.SamePlace other (sibling path) →
    outcome.2.find? other = t.find? other
  /-- The file is replaced if no step fails and there is a place for it and for its sibling. -/
  succeeds : outcome.1 = .ok () ↔
    fault = none ∧ (∃ origin, t.place (sibling path) = .ok origin) ∧
      ∃ destination, t.destination path = .ok destination

variable {outcome : Except FileError Unit × FileTree}

theorem Outcome.whole (h : Outcome t fault path contents outcome)
    (hname : (Path.fileName? path).isSome) (hextension : Path.extension? path ≠ some "tmp") :
    AllOrNothing t path contents outcome := by
  cases h with
  | untouched e => exact .inl ⟨⟨e, rfl⟩, rfl⟩
  | unfinished e kept hplace =>
      refine .inl ⟨⟨e, rfl⟩, ?_⟩
      rw [find?_stored (canHold_of_place hplace), if_neg]
      intro hlocation
      exact hextension ((origin_eq_iff hname (locate_of_place hplace) hlocation).mp rfl)
  | finished _ hplace htarget =>
      refine .inr ⟨rfl, ?_⟩
      rw [find?_moved hplace htarget, if_pos (locate_of_destination htarget)]

theorem Outcome.part (h : Outcome t fault path contents outcome) :
    AllOrNothing t path contents outcome ∨
      ∃ e kept, outcome.1 = .error e ∧
        outcome.2.find? path = some (.file (contents.extract 0 kept)) := by
  cases h with
  | untouched e => exact .inl (.inl ⟨⟨e, rfl⟩, rfl⟩)
  | @unfinished origin e kept hplace =>
      by_cases hlocation : t.locate path = .ok origin
      · refine .inr ⟨e, kept, rfl, ?_⟩
        rw [find?_stored (canHold_of_place hplace), if_pos hlocation]
      · refine .inl (.inl ⟨⟨e, rfl⟩, ?_⟩)
        rw [find?_stored (canHold_of_place hplace), if_neg hlocation]
  | finished _ hplace htarget =>
      refine .inl (.inr ⟨rfl, ?_⟩)
      rw [find?_moved hplace htarget, if_pos (locate_of_destination htarget)]

theorem Outcome.siblingGone (h : Outcome t fault path contents outcome)
    (hname : (Path.fileName? path).isSome) (hextension : Path.extension? path ≠ some "tmp")
    (hok : outcome.1 = .ok ()) : outcome.2.find? (sibling path) = none := by
  cases h with
  | untouched e => cases hok
  | unfinished e kept hplace => cases hok
  | finished _ hplace htarget =>
      have horigin := locate_of_place hplace
      rw [find?_moved hplace htarget, if_neg, if_pos horigin]
      rw [horigin, Except.ok.injEq]
      exact mt (origin_eq_iff hname horigin (locate_of_destination htarget)).mp hextension

theorem Outcome.others (h : Outcome t fault path contents outcome)
    (hpath : ¬ t.SamePlace other path) (hsibling : ¬ t.SamePlace other (sibling path)) :
    outcome.2.find? other = t.find? other := by
  cases h with
  | untouched e => rfl
  | unfinished e kept hplace =>
      rw [find?_stored (canHold_of_place hplace), if_neg]
      exact fun hother => hsibling ⟨_, hother, locate_of_place hplace⟩
  | finished _ hplace htarget =>
      rw [find?_moved hplace htarget, if_neg, if_neg]
      · exact fun hother => hsibling ⟨_, hother, locate_of_place hplace⟩
      · exact fun hother => hpath ⟨_, hother, locate_of_destination htarget⟩

/-- Replacing a file whose name ends in no `tmp` extension is all or nothing, whatever the tree
holds and whichever step fails. -/
theorem replaces_replaced (t : FileTree) (fault : Option Fault) (contents : ByteArray)
    (hname : (Path.fileName? path).isSome) :
    Replaces t fault path contents (t.replaced fault path contents) :=
  have houtcome := outcome_replaced t fault path contents
  { whole := houtcome.whole hname
    part := houtcome.part
    siblingGone := fun hok hextension => houtcome.siblingGone hname hextension hok
    others := fun _ => houtcome.others
    succeeds := replaced_eq_ok_iff }

theorem replaces_replaced_half :
    (Path.fileName? "maps.rs").isSome ∧ Path.extension? "maps.rs" ≠ some "tmp" ∧
      AllOrNothing (empty.add "maps.rs" (some "old")) "maps.rs" "new".toUTF8
        ((empty.add "maps.rs" (some "old")).replaced (some (.write 2)) "maps.rs" "new".toUTF8) :=
  have hextension : Path.extension? "maps.rs" ≠ some "tmp" := by decide
  ⟨by decide, hextension, (replaces_replaced _ _ _ (by decide)).whole hextension⟩

/-- A path with a slash behind it is that of a file which is its own sibling and cannot be
moved. The old contents are lost and the failure is reported. -/
theorem not_allOrNothing_own_sibling :
    ¬ AllOrNothing (empty.add "a.tmp" (some "old")) "a.tmp/" "new".toUTF8
      ((empty.add "a.tmp" (some "old")).replaced none "a.tmp/" "new".toUTF8) := by
  generalize htree : empty.add "a.tmp" (some "old") = t
  have hnode : t.node? ["a.tmp"] = some (.file "old".toUTF8) := by
    rw [← htree]
    rfl
  have hleads : t.Leads [] ["a.tmp"] ["a.tmp"] := .last (by decide) (by decide)
  have hlocate : t.locate "a.tmp" = .ok ["a.tmp"] :=
    locate_eq_ok_iff.mpr ⟨⟨by simp, by decide +kernel, by decide⟩, hleads⟩
  have hlocate' : t.locate "a.tmp/" = .ok ["a.tmp"] :=
    locate_eq_ok_iff.mpr ⟨⟨by simp, by decide +kernel, by decide⟩, hleads⟩
  have hsibling : sibling "a.tmp/" = "a.tmp" := by decide
  have hplace : t.place (sibling "a.tmp/") = .ok ["a.tmp"] := by
    rw [hsibling]
    exact place_eq_ok_iff.mpr ⟨hlocate, by rw [hnode]; simp, by decide +kernel⟩
  have hrefused : ∀ destination, t.destination "a.tmp/" ≠ .ok destination := by
    intro destination htarget
    exact absurd (destination_eq_ok_iff.mp htarget).2.2.2 (by decide +kernel)
  obtain ⟨e, houtcome⟩ : ∃ e, t.replaced none "a.tmp/" "new".toUTF8 =
      (.error e, t.stored ["a.tmp"] "new".toUTF8) := replaced_refused hplace hrefused
  rw [houtcome]
  rintro (⟨-, hfind⟩ | ⟨hok, -⟩)
  · rw [find?_stored (canHold_of_place hplace), if_pos hlocate', find?_of_locate hlocate', hnode]
      at hfind
    have hbytes : "new".toUTF8 = "old".toUTF8 := Node.file.inj (Option.some.inj hfind)
    exact absurd hbytes (by decide)
  · cases hok

end SelectionCompiler.FileTree
