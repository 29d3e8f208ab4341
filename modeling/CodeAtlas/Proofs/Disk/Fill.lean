import CodeAtlas.Proofs.Disk.Ways

/-!
# What writing files does to a disk

Setup: files are written where some paths lead, and the directories on the way of some paths are
made (`Disk.Fills`). Links stay, directories stay, and every other place is as it was. One such
change after another is one again (**`Disk.Fills.trans`**), so what a run does is known from its
steps.

**`Disk.Fills.sameContents_iff`** says when no file has changed.
-/

namespace CodeAtlas.Disk

open CodeAtlas.Path CodeAtlas.Text

variable {d d' d'' : Disk} {place p : Place} {path : String}
    {paths paths' written written' : List String}

/-- The same files stand on both disks, with the same bytes. -/
def SameContents (d d' : Disk) : Prop :=
  ∀ place bytes, d'.lookup place = some (.file bytes) ↔ d.lookup place = some (.file bytes)

/-- A directory was made on the way of one of these paths: where some components at its beginning
lead. -/
def MadeOn (d' : Disk) (paths : List String) (p : Place) : Prop :=
  ∃ path ∈ paths, ∃ front, front <+: splitOn '/' path ∧ Leads d' true maxLinks [] front p

/-- Directories were made on the way of `paths`, and files were written where the paths `written`
lead. -/
structure Fills (d d' : Disk) (paths written : List String) : Prop where
  /-- no link changed -/
  sameLinks : d.SameLinks d'
  /-- no directory is gone -/
  directories : ∀ p, d.lookup p = some .directory → d'.lookup p = some .directory
  /-- a file stands where each of the paths leads -/
  found : ∀ path ∈ written, ∃ place bytes, d'.locate true path = .ok place ∧
    d'.lookup place = some (.file bytes)
  /-- everything else is as it was, but for the new directories -/
  lookup : ∀ p, d'.lookup p = d.lookup p ∨
    (d.lookup p = none ∧ d'.lookup p = some .directory ∧ MadeOn d' paths p) ∨
    ∃ path ∈ written, d'.locate true path = .ok p

theorem MadeOn.mono (h : MadeOn d paths p) (hlinks : d.SameLinks d')
    (directories : ∀ p, d.lookup p = some .directory → d'.lookup p = some .directory)
    (hpaths : ∀ path ∈ paths, path ∈ paths') : MadeOn d' paths' p := by
  obtain ⟨path, hpath, front, hfront, hleads⟩ := h
  exact ⟨path, hpaths path hpath, front, hfront, hleads.mono directories hlinks⟩

/-- No directory is made in a region that the path does not come past. -/
theorem Clear.not_of_madeOn {X : Place → Prop} (h : d.Clear path X) (hmade : MadeOn d [path] p) :
    ¬X p := by
  obtain ⟨path', hpath, front, ⟨rest, hrest⟩, hleads⟩ := hmade
  rw [List.mem_singleton.mp hpath] at hrest
  exact h p (hrest ▸ hleads.visits.append rest)

namespace Fills

theorem refl (d : Disk) (paths : List String) : d.Fills d paths [] :=
  ⟨.refl d, fun _ hp => hp, nofun, fun _ => .inl rfl⟩

/-- **One after the other.** What was written first is still there, unless it was written again. -/
theorem trans (h : d.Fills d' paths written) (h' : d'.Fills d'' paths' written') :
    d.Fills d'' (paths ++ paths') (written ++ written') where
  sameLinks := h.sameLinks.trans h'.sameLinks
  directories p hp := h'.directories p (h.directories p hp)
  found := by
    refine List.forall_mem_append.mpr ⟨fun path hpath => ?_, h'.found⟩
    obtain ⟨place, bytes, hlocate, hbytes⟩ := h.found path hpath
    have hstill := h'.sameLinks.locate h'.directories hlocate
    rcases h'.lookup place with hsame | ⟨hnone, -⟩ | ⟨again, hagain, hlocate'⟩
    · exact ⟨place, bytes, hstill, by rw [hsame, hbytes]⟩
    · rw [hbytes] at hnone
      cases hnone
    · obtain ⟨place', bytes', hplace', hbytes'⟩ := h'.found again hagain
      rw [hlocate', Except.ok.injEq] at hplace'
      exact ⟨place, bytes', hstill, hplace' ▸ hbytes'⟩
  lookup p := by
    have hwritten : (∃ path ∈ written, d'.locate true path = .ok p) →
        ∃ path ∈ written ++ written', d''.locate true path = .ok p := fun ⟨path, hpath, hlocate⟩ =>
      ⟨path, List.mem_append_left _ hpath, h'.sameLinks.locate h'.directories hlocate⟩
    rcases h'.lookup p with hsame' | ⟨hnone', hnew', hmade'⟩ | ⟨path, hpath, hlocate⟩
    · rcases h.lookup p with hsame | ⟨hnone, hnew, hmade⟩ | hlocate
      · exact .inl (hsame'.trans hsame)
      · exact .inr (.inl ⟨hnone, hsame'.trans hnew, hmade.mono h'.sameLinks h'.directories fun _ =>
          List.mem_append_left _⟩)
      · exact .inr (.inr (hwritten hlocate))
    · rcases h.lookup p with hsame | ⟨-, hnew, -⟩ | hlocate
      · exact .inr (.inl ⟨hsame ▸ hnone', hnew', hmade'.mono (.refl _) (fun _ hp => hp) fun _ =>
          List.mem_append_right _⟩)
      · rw [hnew] at hnone'
        cases hnone'
      · exact .inr (.inr (hwritten hlocate))
    · exact .inr (.inr ⟨path, List.mem_append_right _ hpath, hlocate⟩)

/-- Where nothing was written there is at most a new directory. -/
theorem kept (h : d.Fills d' paths written) (hp : ∀ path ∈ written, d'.locate true path ≠ .ok p) :
    d.Kept d' p := by
  rcases h.lookup p with hsame | ⟨hnone, hnew, -⟩ | ⟨path, hpath, hlocate⟩
  · exact .inl hsame
  · exact .inr ⟨hnone, hnew⟩
  · exact absurd hlocate (hp path hpath)

/-- Where nothing was written the disk has only grown. -/
theorem grows (h : d.Fills d' paths []) : d.Grows d' :=
  fun _ => h.kept nofun

/-- **No file has changed** exactly if none of the paths leads to one that has. -/
theorem sameContents_iff (h : d.Fills d' paths written) : d.SameContents d' ↔
    ∀ path ∈ written, ∀ place, d'.locate true path = .ok place →
      d'.lookup place = d.lookup place := by
  constructor
  · intro hsame path hpath place hlocate
    obtain ⟨place', bytes, hlocate', hbytes⟩ := h.found path hpath
    rw [hlocate, Except.ok.injEq] at hlocate'
    subst hlocate'
    rw [hbytes, (hsame place bytes).mp hbytes]
  · intro hplaces place bytes
    by_cases hwritten : ∃ path ∈ written, d'.locate true path = .ok place
    · obtain ⟨path, hpath, hlocate⟩ := hwritten
      rw [hplaces path hpath place hlocate]
    · have hkept := h.kept fun path hpath hlocate => hwritten ⟨path, hpath, hlocate⟩
      exact ⟨hkept.lookup_of_file, hkept.lookup_of_some⟩

end Fills

/-! ## Making directories and writing a file -/

/-- Making directories, whether it succeeds or not. -/
theorem fills_makeDirectories (path : String) (d : Disk) :
    d.Fills ((makeDirectories path).after d) [path] [] := by
  have hgrows := grows_after_makeDirectories path d
  refine ⟨hgrows.sameLinks, fun p => hgrows.lookup_of_some, nofun, fun p => ?_⟩
  rcases hgrows p with hsame | ⟨hnone, hnew⟩
  · exact .inl hsame
  · exact .inr
      (.inl ⟨hnone, hnew, path, List.mem_singleton.mpr rfl, front_of_makeDirectories hnone hnew⟩)

/-- Writing a file where a path leads. -/
theorem fills_put (h : d.writable path = .ok place) (bytes : ByteArray) :
    d.Fills (d.put place (.file bytes)) [] [path] := by
  have hdead := (dead_of_writable h).2
  have hways := sameWays_put hdead.ne_nil hdead bytes
  have hput := lookup_put (d := d) hdead.ne_nil (.file bytes)
  have hfound := hways.locate_iff.mp (locate_of_writable h)
  refine ⟨hways.sameLinks, fun p => hways.directory, ?_, fun p => ?_⟩
  · rw [List.forall_mem_singleton]
    exact ⟨place, bytes, hfound, by rw [hput, if_pos rfl]⟩
  · by_cases hp : p = place
    · subst hp
      exact .inr (.inr ⟨path, List.mem_singleton.mpr rfl, hfound⟩)
    · rw [hput, if_neg hp]
      exact .inl rfl

/-- The directory that a path lies in is on the way of the path. -/
theorem Fills.of_parent? {parent : String} (hparent : parent? path = some parent)
    (h : d.Fills d' [parent] written) : d.Fills d' [path] written := by
  refine ⟨h.sameLinks, h.directories, h.found, fun p => ?_⟩
  rcases h.lookup p with hsame | ⟨hnone, hnew, q, hq, front, hfront, hleads⟩ | hlocate
  · exact .inl hsame
  · rw [List.mem_singleton.mp hq] at hfront
    refine .inr (.inl ⟨hnone, hnew, path, List.mem_singleton.mpr rfl, front,
      prefix_of_parent? hparent hfront hleads ?_, hleads⟩)
    rintro rfl
    cases hnone
  · exact .inr (.inr hlocate)

end CodeAtlas.Disk
