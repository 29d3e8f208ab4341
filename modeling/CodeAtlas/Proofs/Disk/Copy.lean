import CodeAtlas.Proofs.Disk.Links

/-!
# What a change that succeeded must have met

Setup: a copy or a save can fail for many reasons, and each of them tells something about the disk
on which it succeeds. **`Disk.copy_inv`** and **`Disk.room_of_save`** go back from the success: the
source was a file, nothing but a file stood at the target, and there was room for the saved file and
its draft.
-/

namespace CodeAtlas.Disk

open CodeAtlas.Path

variable {d d' d'' : Disk} {follow : Bool} {home place : Place} {path : String}

/-! ## Changes in a row -/

section

variable {ε ε' α β : Type}

/-- Two changes succeed when the second succeeds after the first. -/
theorem bind_eq_ok {c : Change ε α} {k : α → Change ε β} {b : β} :
    (c >>= k) d = .ok b d'' ↔ ∃ a d', c d = .ok a d' ∧ k a d' = .ok b d'' := by
  simp only [bind, EStateM.bind]
  cases c d with
  | ok a d' => simp
  | error e d' => simp

/-- Two changes fail when the first one fails, or the second one after it. -/
theorem bind_eq_error {c : Change ε α} {k : α → Change ε β} {e : ε} :
    (c >>= k) d = .error e d'' ↔
      c d = .error e d'' ∨ ∃ a d', c d = .ok a d' ∧ k a d' = .error e d'' := by
  simp only [bind, EStateM.bind]
  cases c d with
  | ok a d' => simp
  | error e d' => simp

/-- Other words for a failure change no success. -/
theorem reporting_eq_ok {f : ε → ε'} {c : Change ε α} {a : α} :
    reporting f c d = .ok a d' ↔ c d = .ok a d' := by
  rw [reporting]
  cases c d with
  | ok b e => simp
  | error e e' => simp

/-- A failure is reported in other words. -/
theorem reporting_eq_error {f : ε → ε'} {c : Change ε α} {e : ε'} :
    reporting f c d = .error e d' ↔ ∃ cause, c d = .error cause d' ∧ f cause = e := by
  rw [reporting]
  cases c d with
  | ok a d₁ => simp
  | error cause d₁ => simp [and_comm]

end

/-! ## Places that are kept -/

/-- At this place the second disk is like the first one, or has a new directory. -/
def Kept (d d' : Disk) (place : Place) : Prop :=
  d'.lookup place = d.lookup place ∨ d.lookup place = none ∧ d'.lookup place = some .directory

theorem Kept.trans (h : d.Kept d' place) (h' : d'.Kept d'' place) : d.Kept d'' place := by
  rcases h with hsame | ⟨hnone, hnew⟩ <;> rcases h' with hsame' | ⟨hnone', hnew'⟩
  · exact .inl (hsame'.trans hsame)
  · exact .inr ⟨hsame ▸ hnone', hnew'⟩
  · exact .inr ⟨hnone, hsame'.trans hnew⟩
  · rw [hnew] at hnone'
    cases hnone'

/-- What stood there stands there. -/
theorem Kept.lookup_of_some (h : d.Kept d' place) {entry : Entry}
    (hentry : d.lookup place = some entry) : d'.lookup place = some entry := by
  rcases h with hsame | ⟨hnone, -⟩
  · rw [hsame, hentry]
  · rw [hentry] at hnone
    cases hnone

/-- A file that stands there stood there. -/
theorem Kept.lookup_of_file (h : d.Kept d' place) {bytes : ByteArray}
    (hentry : d'.lookup place = some (.file bytes)) : d.lookup place = some (.file bytes) := by
  rcases h with hsame | ⟨-, hnew⟩
  · rw [← hsame, hentry]
  · rw [hentry] at hnew
    cases hnew

/-- A path leads where it led while directories and links stay. -/
theorem SameLinks.locate (h : d.SameLinks d')
    (directories : ∀ p, d.lookup p = some .directory → d'.lookup p = some .directory)
    (hlocate : d.locate follow path = .ok place) : d'.locate follow path = .ok place :=
  locate_iff_leads.mpr ((locate_iff_leads.mp hlocate).mono directories h)

/-- A path of names behind a path aims at the place of the names behind its place, where no links
stand. -/
theorem Aims.pathBelow {directory : String} {names : List String} (h : d.Aims directory home)
    (hne : names ≠ []) (hnames : ∀ name ∈ names, IsName name)
    (hplain : ∀ front, front ≠ [] → front <+: names → ∀ target,
      d.lookup (home ++ front) ≠ some (.link target)) :
    d.Aims (pathBelow directory names) (home ++ names) := by
  intro d' hlinks place hlocate
  obtain ⟨home', hhome, -, rfl⟩ := locate_pathBelow_inv hne hnames hlocate
    fun home' hhome front hfront hprefix => by
      rw [h d' hlinks home' hhome]
      exact hlinks.ne_link (hplain front hfront hprefix)
  rw [h d' hlinks home' hhome]

/-! ## Copying and saving -/

/-- A path of names ends in no slash. -/
theorem withoutEndSlashes_pathBelow (directory : String) {names : List String} (hne : names ≠ [])
    (hnames : ∀ name ∈ names, IsName name) :
    withoutEndSlashes (Disk.pathBelow directory names) = Disk.pathBelow directory names := by
  obtain ⟨front, last, rfl⟩ := (List.eq_nil_or_concat' names).resolve_left hne
  rw [Disk.pathBelow, List.foldl_concat]
  exact (withoutEndSlashes_join _ (hnames last (by simp))).1

/-- The top is a directory. -/
theorem Dead.ne_nil (h : Dead (d.lookup place)) : place ≠ [] := by
  rintro rfl
  exact h

/-- A path that does not end in a slash is itself without slashes at its end. -/
theorem withoutEndSlashes_of_not_hasEndSlash (h : hasEndSlash path = false) :
    withoutEndSlashes path = path := by
  have hkept : (path.toList.reverse.dropWhile (· = '/')).reverse = path.toList := by
    rw [hasEndSlash, decide_eq_false_iff_not, ← List.head?_reverse] at h
    cases hlast : path.toList.reverse with
    | nil => simpa using hlast.symm
    | cons c cs =>
      rw [hlast, List.head?_cons, Option.some.injEq] at h
      rw [List.dropWhile_cons_of_neg (by simpa using h), ← hlast, List.reverse_reverse]
  have htop : (path.toList.isEmpty && isAbsolute path) = false := by
    cases hlist : path.toList <;> simp [isAbsolute, hlist]
  simp only [withoutEndSlashes, hkept, htop, Bool.false_eq_true, if_false, String.ofList_toList]

/-- A file is written where no directory and no link stands. -/
theorem dead_of_writable (h : d.writable path = .ok place) :
    d.locate true (withoutEndSlashes path) = .ok place ∧ Dead (d.lookup place) := by
  rw [writable] at h
  split at h
  · cases h
  · next found hlocate =>
    split_ifs at h
    split at h
    · cases h
    · next hdirectory =>
      cases h
      refine ⟨hlocate, ?_⟩
      cases hentry : d.lookup place with
      | none => trivial
      | some entry =>
        cases entry with
        | file => trivial
        | directory => exact absurd hentry hdirectory
        | link target => exact absurd hentry (locate_ne_link hlocate target)

/-- A file is written where its path leads. -/
theorem locate_of_writable (h : d.writable path = .ok place) : d.locate true path = .ok place := by
  have hlocate := (dead_of_writable h).1
  rw [writable, hlocate] at h
  split_ifs at h with hend
  rwa [withoutEndSlashes_of_not_hasEndSlash (by simpa using hend)] at hlocate

/-- A write that succeeds puts a file at a place that is writable. -/
theorem write_inv {bytes : ByteArray} (h : write path bytes d = .ok () d') :
    ∃ place, d.writable path = .ok place ∧ d' = d.put place (.file bytes) := by
  rw [write] at h
  split at h
  · cases h
  · next place hwritable =>
    cases h
    exact ⟨place, hwritable, rfl⟩

/-- A write that fails changes nothing. -/
theorem write_error_inv {bytes : ByteArray} {e : DiskError} (h : write path bytes d = .error e d') :
    d' = d := by
  rw [write] at h
  split at h <;> cases h
  rfl

/-- A move that fails changes nothing. -/
theorem rename_error_inv {source target : String} {e : DiskError}
    (h : rename source target d = .error e d') :
    d' = d := by
  rw [rename] at h
  split at h
  · cases h; rfl
  · split at h
    · cases h; rfl
    · split at h
      · cases h; rfl
      · split at h
        · cases h; rfl
        · split_ifs at h

/-- No directory stands where a file was moved to. -/
theorem ne_directory_of_rename {source target : String} (h : rename source target d = .ok () d')
    (htarget : d.locate false target = .ok place) : d.lookup place ≠ some .directory := by
  intro hdirectory
  rw [rename] at h
  simp only [htarget, hdirectory] at h
  split at h <;> try cases h
  split at h <;> cases h

/-- A copy that succeeds puts a file at a place that is writable. -/
theorem copy_puts {source target : String} (h : copy source target d = .ok () d') :
    ∃ goal content, d.writable target = .ok goal ∧ d' = d.put goal (.file content) := by
  rw [copy] at h
  split at h
  · cases h
  · split at h
    · split at h
      · cases h
      · next goal hgoal =>
        cases h
        exact ⟨goal, _, hgoal, rfl⟩
    · cases h

/-- A copy that fails changes nothing. -/
theorem copy_error_inv {source target : String} {e : DiskError}
    (h : copy source target d = .error e d') :
    d' = d := by
  rw [copy] at h
  split at h
  · cases h; rfl
  · split at h
    · split at h <;> cases h
      rfl
    · cases h; rfl

/-- The place at which something stands is the one that the path leads to. -/
theorem locate_of_canonical? (h : d.canonical? path = .ok place) :
    d.locate true path = .ok place := by
  rw [canonical?] at h
  split at h
  · cases h
  · next hlocate =>
    split_ifs at h
    cases h
    exact hlocate

/-- A copy that succeeds puts a file at a place where no directory and no link stood; it holds the
bytes of the source unless that is the same file. -/
theorem copy_inv {source target : String} (h : copy source target d = .ok () d') :
    ∃ origin bytes, d.locate true source = .ok origin ∧ d.lookup origin = some (.file bytes) ∧
      ∃ goal, d.locate true (withoutEndSlashes target) = .ok goal ∧ Dead (d.lookup goal) ∧
        ∃ content, d' = d.put goal (.file content) ∧ (goal ≠ origin → content = bytes) := by
  rw [copy] at h
  split at h
  · cases h
  · next origin hcanonical =>
    have hsource := locate_of_canonical? hcanonical
    split at h
    · next bytes hbytes =>
      split at h
      · cases h
      · next goal hgoal =>
        cases h
        obtain ⟨hlocate, hdead⟩ := dead_of_writable hgoal
        exact ⟨origin, bytes, hsource, hbytes, goal, hlocate, hdead, _, rfl, fun hne => if_neg hne⟩
    · cases h

/-- **A file is copied** to a place where no directory and no link has its name. -/
theorem copy_eq {source directory name : String} {origin : Place} {bytes : ByteArray}
    (hsource : d.locate true source = .ok origin) (hbytes : d.lookup origin = some (.file bytes))
    (h : d.locate true directory = .ok home) (hhome : d.lookup home = some .directory)
    (hname : IsName name) (hdead : Dead (d.lookup (home ++ [name])))
    (hne : home ++ [name] ≠ origin) :
    copy source (join directory name) d = .ok () (d.put (home ++ [name]) (.file bytes)) := by
  simp only [copy, canonical?, hsource, hbytes, Option.isSome_some, if_true,
    writable_join h hhome hname hdead, if_neg hne]

/-- A file that is saved where no links stand has room there, once its directory is made. -/
theorem room_of_save {directory name text : String} (h : save directory name text d = .ok () d')
    (haims : d.Aims directory home) (hname : IsName name) (hdraft : IsName (name ++ ".tmp"))
    (hplain : ∀ last target, d.lookup (home ++ [last]) ≠ some (.link target)) :
    ∃ e, makeDirectories directory d = .ok () e ∧ e.Room directory home name ∧
      save directory name text e = .ok () d' := by
  rw [save] at h
  obtain ⟨_, e, hmake, hrest⟩ := bind_eq_ok.mp h
  obtain ⟨_, between, hwrite, hrename⟩ := bind_eq_ok.mp hrest
  replace hwrite := reporting_eq_ok.mp hwrite
  replace hrename := reporting_eq_ok.mp hrename
  have hgrows := grows_makeDirectories (reporting_eq_ok.mp hmake)
  have hlinks := hgrows.sameLinks
  have hlast (last : String) : ∀ target, e.lookup (home ++ [last]) ≠ some (.link target) :=
    hlinks.ne_link (hplain last)
  -- the draft was written, so the directory is there
  have hslashes := (withoutEndSlashes_join directory hdraft).1
  obtain ⟨place, hwritable, rfl⟩ := write_inv hwrite
  obtain ⟨hlocate, hdead⟩ := dead_of_writable hwritable
  rw [hslashes] at hlocate
  obtain ⟨home', hfound, hdirectory, hplace⟩ := locate_join_inv hlocate hdraft
  obtain rfl := haims e hlinks home' hfound
  obtain rfl := hplace (.inr (hlast _))
  -- the draft was moved, so no directory has the name of the file
  have hways := sameWays_put (List.append_ne_nil_of_right_ne_nil _ (List.cons_ne_nil _ _)) hdead
    text.toUTF8
  have hfile : Dead (e.lookup (home' ++ [name])) := by
    have htarget := locate_join false (hways.locate_iff.mp hfound) (hways.directory hdirectory)
      hname (hways.sameLinks.ne_link (hlast name))
    have hkept : (e.put (home' ++ [name ++ ".tmp"]) (.file text.toUTF8)).lookup (home' ++ [name]) =
        e.lookup (home' ++ [name]) := by
      rw [lookup_put (List.append_ne_nil_of_right_ne_nil _ (List.cons_ne_nil _ _)),
        if_neg (ne_draft home' name)]
    have hmoved := ne_directory_of_rename hrename htarget
    rw [hkept] at hmoved
    cases hentry : e.lookup (home' ++ [name]) with
    | none => trivial
    | some entry =>
      cases entry with
      | file => trivial
      | link target => exact absurd hentry (hlast name target)
      | directory => exact absurd hentry hmoved
  refine ⟨e, reporting_eq_ok.mp hmake, ⟨hfound, hdirectory, hname, hdraft, hfile, hdead⟩, ?_⟩
  rw [save, bind_eq_ok]
  exact ⟨(), e, reporting_eq_ok.mpr (makeDirectories_of_directory hfound hdirectory), hrest⟩

end CodeAtlas.Disk
