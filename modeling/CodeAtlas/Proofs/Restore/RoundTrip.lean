import Mathlib
import CodeAtlas.Proofs.Restore.History

/-!
# Restoring brings back what was copied

Setup: a store has any history (`RestoreStore.History`), and a point is restored.
**`RestoreStore.restore_round_trip`** says that the point is the one that was made under this id,
that each of its files holds the bytes it held when the point was made, and that nothing else has
changed but for directories that were missing. Different spellings of one path are one file of a
point.
-/

namespace CodeAtlas

open CodeAtlas.Disk CodeAtlas.Path CodeAtlas.Text

namespace RestoreStore

variable {s : RestoreStore} {vault : Place} {made : List Made} {d d' : Disk} {m : Made}

/-- **Restoring a point after any history** gives the point that was made under its id, and brings
back the bytes that its files held then; everything else, the log included, stays as it was, but for
new directories. The files of a point are those of its paths, each of them once. -/
theorem restore_round_trip (h : s.History vault made d) :
    (∀ m ∈ made, m.point.files.Nodup ∧
      ∀ name, name ∈ m.point.files ↔ ∃ path ∈ m.paths, s.root.relative path = .ok name) ∧
    ∀ id point d', s.restore id d = .ok point d' →
      (∃ m ∈ made, m.point = point ∧ point.id = id ∧ (∀ m' ∈ made, m'.point.id = id → m' = m) ∧
        ∀ name ∈ point.files, ∃ bytes, m.disk.read (s.root.absolute name) = .ok bytes ∧
          d'.read (s.root.absolute name) = .ok bytes) ∧
      (∀ place, (∀ name ∈ point.files, d'.locate true (s.root.absolute name) ≠ .ok place) →
        d'.lookup place = d.lookup place ∨
          d.lookup place = none ∧ d'.lookup place = some .directory) ∧
      d'.read s.logPath = d.read s.logPath ∧ s.load d' = s.load d := by
  have hholds := h.holds
  refine ⟨fun m hm => ⟨(hholds.fits m hm).nodup, (hholds.fits m hm).files⟩,
    fun id point d' hrestore => ?_⟩
  obtain ⟨hmem, hid⟩ := mem_of_find (restore_eq_ok_iff.mp hrestore).1
  obtain ⟨m, hm, rfl, hcopied, hcopies⟩ := hholds.restored_spec hrestore
  have hfits := hholds.fits m hm
  have hlog : d'.read s.logPath = d.read s.logPath := by
    obtain ⟨bytes, hread⟩ := read_of_load (List.ne_nil_of_mem hmem)
    obtain ⟨place, hlocate, hentry⟩ := read_eq_ok_iff.mp hread
    obtain ⟨home, hhome, -, hplace⟩ := locate_join_inv hlocate isName_logName
    obtain rfl := hholds.seated.aims d (.refl d) home hhome
    obtain rfl := hplace (.inr (hholds.seated.plain [logName] (List.cons_ne_nil _ _)))
    have hkept := hcopied.kept (home ++ [logName]) fun name hname heq =>
      hfits.outside name hname (heq ▸ List.prefix_append home _)
    rw [hread]
    exact read_eq_ok_iff.mpr ⟨_, hcopied.sameLinks.locate hcopied.directories hlocate,
      hkept.lookup_of_some hentry⟩
  refine ⟨⟨m, hm, rfl, hid, fun m' hm' hid' => ?_, fun name hname => ?_⟩, fun place hplace => ?_,
    hlog, ?_⟩
  · exact List.inj_on_of_nodup_map hholds.nodup hm' hm (hid'.trans hid.symm)
  · obtain ⟨hfound, -⟩ := hfits.found name hname
    obtain ⟨bytes, hcopy, hfile⟩ := hcopied.bytes name hname
    rw [hcopies name hname] at hcopy
    exact ⟨bytes, read_eq_ok_iff.mpr ⟨_, hfound, hcopy⟩,
      read_eq_ok_iff.mpr ⟨_, hcopied.found name hname, hfile⟩⟩
  · refine hcopied.kept place fun name hname heq => hplace name hname ?_
    rw [heq, hcopied.found name hname]
  · rw [load, load, hlog]

/-! ## A file that is overwritten

A point is made of one file, the file is overwritten, and the point is restored. -/

/-- A root with one file, and a directory for a store. -/
def oneFile : Disk :=
  ((Disk.empty.put ["r"] .directory).put ["r", "a"] (.file "old".toUTF8)).put ["r", "s"] .directory

/-- The store of that directory. -/
def oneFileStore : RestoreStore :=
  ⟨Root.ofDirectory "/r" [], "/r/s", 1⟩

/-- The point that is made of the file. -/
def oneFilePoint : RestorePoint :=
  ⟨"rp-7-0", 7, ["a"], "before"⟩

/-- The disk when the file has been copied, before the point is logged. -/
def oneFileCopied : Disk :=
  (oneFile.put ["r", "s", "rp-7-0"] .directory).put ["r", "s", "rp-7-0", "a"] (.file "old".toUTF8)

/-- Nothing lies in the store at first. -/
theorem oneFile_empty {more : List String} (hmore : more ≠ []) :
    oneFile.lookup (["r", "s"] ++ more) = none := by
  simp [oneFile, lookup_put, lookup_empty, hmore]

/-- The path of the file. -/
theorem oneFileStore_absolute : oneFileStore.root.absolute "a" = "/r/a" := by cbv

/-- The path of the directory that holds its copy. -/
theorem oneFileStore_pointDirectory : oneFileStore.pointDirectory "rp-7-0" = "/r/s/rp-7-0" := by
  simp [pointDirectory, oneFileStore, join, isAbsolute]

/-- The path of its copy. -/
theorem oneFileStore_copy : join (oneFileStore.pointDirectory "rp-7-0") "a" = "/r/s/rp-7-0/a" := by
  rw [oneFileStore_pointDirectory]
  simp [join, isAbsolute]

/-- The copy lies in that directory. -/
theorem oneFileStore_parent : parent? (join (oneFileStore.pointDirectory "rp-7-0") "a") =
    some (oneFileStore.pointDirectory "rp-7-0") := by
  rw [oneFileStore_copy, oneFileStore_pointDirectory]
  cbv

/-- The path of the root leads there. -/
theorem oneFileStore_locate_root {d : Disk} (hroot : d.lookup ["r"] = some .directory) :
    d.locate true oneFileStore.root.directory = .ok ["r"] := by
  have hparts : splitOn '/' oneFileStore.root.directory = ["", "r"] := by decide +kernel
  rw [locate_iff_leads, hparts]
  exact .idle rfl (.inl rfl) (.enter rfl (by decide) (by decide) (by simp [hroot]) .arrive)

/-- The path of the store leads down. -/
theorem oneFileStore_locate {d : Disk} (hroot : d.lookup ["r"] = some .directory)
    (hstore : d.lookup ["r", "s"] = some .directory) :
    d.locate true oneFileStore.directory = .ok ["r", "s"] := by
  have hparts : splitOn '/' oneFileStore.directory = ["", "r", "s"] := by decide +kernel
  rw [locate_iff_leads, hparts]
  exact .idle rfl (.inl rfl) (.enter rfl (by decide) (by decide) (by simp [hroot])
    (.enter hroot (by decide) (by decide) (by simp [hstore]) .arrive))

/-- So does the path of the file. -/
theorem oneFileStore_locate_file {d : Disk} {bytes : ByteArray}
    (hroot : d.lookup ["r"] = some .directory) (hfile : d.lookup ["r", "a"] = some (.file bytes)) :
    d.locate true (oneFileStore.root.absolute "a") = .ok ["r", "a"] := by
  have hparts : splitOn '/' "/r/a" = ["", "r", "a"] := by decide +kernel
  rw [oneFileStore_absolute, locate_iff_leads, hparts]
  exact .idle rfl (.inl rfl) (.enter rfl (by decide) (by decide) (by simp [hroot])
    (.enter hroot (by decide) (by decide) (by simp [hfile]) .arrive))

/-- The file is copied, whatever else is on the disk, if there are no copies yet. -/
theorem oneFileStore_backUp {d : Disk} {bytes : ByteArray}
    (hroot : d.lookup ["r"] = some .directory)
    (hfile : d.lookup ["r", "a"] = some (.file bytes))
    (hstore : d.lookup ["r", "s"] = some .directory)
    (hnew : ∀ more, d.lookup (["r", "s"] ++ "rp-7-0" :: more) = none) :
    oneFileStore.backUp "rp-7-0" ["a"] d =
      .ok () ((d.put ["r", "s", "rp-7-0"] .directory).put ["r", "s", "rp-7-0", "a"]
        (.file bytes)) := by
  have hcopied := backUp_one (oneFileStore_locate_file hroot hfile) hfile
    (oneFileStore_locate hroot hstore) hstore
    ⟨by decide, by decide, by decide, by decide⟩ ⟨by decide, by decide, by decide, by decide⟩ hnew
    oneFileStore_parent
  exact hcopied

/-- The file is copied. -/
theorem oneFile_backUp : oneFileStore.backUp "rp-7-0" ["a"] oneFile = .ok () oneFileCopied :=
  oneFileStore_backUp (by simp [oneFile, lookup_put]) (by simp [oneFile, lookup_put])
    (by simp [oneFile, lookup_put]) fun _ => oneFile_empty (List.cons_ne_nil _ _)

/-- The point is logged. -/
theorem oneFile_create : ∃ d, oneFileStore.create 7 0 ["a", "./a"] "before" oneFile =
      ⟨.ok oneFilePoint, 1, d⟩ ∧
    ∀ p, d.lookup p = if p = ["r", "s", logName] then
        some (.file (RestorePoint.logText [oneFilePoint]).toUTF8)
      else if ["r", "s", logName ++ ".tmp"] <+: p then none else oneFileCopied.lookup p := by
  have hnone : oneFileCopied.lookup (["r", "s"] ++ [logName]) = none := by cbv
  have hroom : oneFileCopied.Room oneFileStore.directory ["r", "s"] logName := by
    refine ⟨by cbv, by cbv, isName_logName, isName_draft, ?_, ?_⟩
    · rw [hnone]
      trivial
    · rw [show oneFileCopied.lookup (["r", "s"] ++ [logName ++ ".tmp"]) = none by cbv]
      trivial
  obtain ⟨d, hsave, -, hlookup⟩ := save_of_room hroom (RestorePoint.logText [oneFilePoint])
  refine ⟨d, ?_, hlookup⟩
  have hload : oneFileStore.load oneFileCopied = [] := by
    have hlocate := locate_join true hroom.found hroom.isDirectory isName_logName
      (show ∀ target, oneFileCopied.lookup (["r", "s"] ++ [logName]) ≠ some (.link target) by
        rw [hnone]; simp)
    simp only [load, logPath, Disk.read, Disk.find, hlocate, hnone]
  have hnames : oneFileStore.namesOf oneFile ["a", "./a"] = .ok ["a"] := by cbv
  have hpoint : oneFilePoint = ⟨idOf 7 0, 7, ["a"], "before"⟩ := by
    rw [show idOf 7 0 = "rp-7-0" by cbv, oneFilePoint]
  have hlogged : oneFileStore.save (oneFileStore.staying oneFileCopied oneFilePoint)
      (oneFileStore.evict (oneFileStore.evicted oneFileCopied oneFilePoint) oneFileCopied) =
        .ok () d := by
    rw [staying, evicted, hload]
    exact reporting_eq_ok.mpr hsave
  exact create_eq_ok_iff.mpr ⟨rfl, oneFileCopied, ⟨hnames, hpoint, oneFile_backUp⟩, hlogged⟩

/-- The file is overwritten with other bytes, and the directories and links are those of the copied
disk. -/
theorem oneFile_edit {d : Disk} (h : ∀ p, d.lookup p = if p = ["r", "s", logName] then
        some (.file (RestorePoint.logText [oneFilePoint]).toUTF8)
      else if ["r", "s", logName ++ ".tmp"] <+: p then none else oneFileCopied.lookup p) :
    oneFileCopied.SameLinks (d.put ["r", "a"] (.file "new".toUTF8)) ∧
      ∀ p, oneFileCopied.lookup p = some .directory →
        (d.put ["r", "a"] (.file "new".toUTF8)).lookup p = some .directory := by
  have hlog : oneFileCopied.lookup ["r", "s", logName] = none := by cbv
  have hfile : oneFileCopied.lookup ["r", "a"] = some (.file "old".toUTF8) := by cbv
  have hdraft (more : Place) :
      oneFileCopied.lookup (["r", "s", logName ++ ".tmp"] ++ more) = none := by
    simp [oneFileCopied, oneFile, lookup_put, lookup_empty, logName]
  -- where the disks differ there was no directory and no link
  have hsame (p : Place) :
      (d.put ["r", "a"] (.file "new".toUTF8)).lookup p = oneFileCopied.lookup p ∨
      Dead (oneFileCopied.lookup p) ∧ Dead ((d.put ["r", "a"] (.file "new".toUTF8)).lookup p) := by
    rw [lookup_put (List.cons_ne_nil _ _), h]
    split_ifs with hedit hlogged hgone
    · rw [hedit, hfile]
      exact .inr ⟨trivial, trivial⟩
    · rw [hlogged, hlog]
      exact .inr ⟨trivial, trivial⟩
    · obtain ⟨more, rfl⟩ := hgone
      exact .inl (hdraft more).symm
    · exact .inl rfl
  have hways : oneFileCopied.SameWays (d.put ["r", "a"] (.file "new".toUTF8)) := fun p =>
    (hsame p).imp Eq.symm id
  exact ⟨hways.sameLinks, fun p => hways.directory⟩

/-- The copy is put back over the file. -/
theorem oneFile_putBack {d : Disk} (hlinks : oneFileCopied.SameLinks d)
    (hdirectories : ∀ p, oneFileCopied.lookup p = some .directory → d.lookup p = some .directory)
    (hcopy : d.lookup ["r", "s", "rp-7-0", "a"] = some (.file "old".toUTF8))
    (hfile : d.lookup ["r", "a"] = some (.file "new".toUTF8)) :
    ∃ d', oneFileStore.putBack oneFilePoint d = .ok () d' := by
  have htarget : oneFileStore.root.absolute "a" = join "/r" "a" := by
    rw [oneFileStore_absolute]
    simp [join, isAbsolute]
  have hroot : d.locate true "/r" = .ok ["r"] :=
    hlinks.locate hdirectories (show oneFileCopied.locate true "/r" = .ok ["r"] by cbv)
  have htop := hdirectories ["r"] (show oneFileCopied.lookup ["r"] = some .directory by cbv)
  have horigin : d.locate true "/r/s/rp-7-0/a" = .ok ["r", "s", "rp-7-0", "a"] :=
    hlinks.locate hdirectories
      (show oneFileCopied.locate true "/r/s/rp-7-0/a" = .ok ["r", "s", "rp-7-0", "a"] by cbv)
  have hput := copy_eq horigin hcopy hroot htop
    (show IsName "a" from ⟨by decide, by decide, by decide, by decide⟩)
    (show Dead (d.lookup ["r", "a"]) by rw [hfile]; trivial) (by decide)
  have hone : copyTo "/r/s/rp-7-0/a" (join "/r" "a") (.putBack "a" "rp-7-0") d = .ok () _ :=
    copyTo_of_copy (by cbv) (makeDirectories_of_directory hroot htop) hput
  refine ⟨d.put ["r", "a"] (.file "old".toUTF8), ?_⟩
  rw [putBack, List.forM_eq_forM, oneFilePoint, List.forM_cons, oneFileStore_copy, htarget]
  exact bind_eq_ok.mpr ⟨(), _, hone, rfl⟩

/-- The file is overwritten after the point was made, and the point can be restored. -/
theorem oneFile_overwritten : ∃ d,
    oneFileStore.History ["r", "s"] [⟨oneFilePoint, ["a", "./a"], oneFile⟩] d ∧
      d.read "/r/a" = .ok "new".toUTF8 ∧
        ∃ d', oneFileStore.restore "rp-7-0" d = .ok oneFilePoint d' := by
  obtain ⟨d₁, hcreate, hlookup⟩ := oneFile_create
  obtain ⟨hlinks, hdirectories⟩ := oneFile_edit hlookup
  have hfound : oneFile.locate true "/r/a" = .ok ["r", "a"] := by cbv
  have hstart : oneFileStore.History ["r", "s"] [] oneFile :=
    .start (aims_of_locate (show oneFile.locate true "/r/s" = .ok ["r", "s"] by cbv)) fun _ =>
      oneFile_empty
  have hmade : oneFileStore.History ["r", "s"] [⟨oneFilePoint, ["a", "./a"], oneFile⟩] d₁ := by
    refine .created hstart (by decide) (fun name hname place hplace => ?_) hcreate
    rw [List.mem_singleton.mp hname, oneFileStore_absolute, hfound] at hplace
    cases hplace
    decide
  have hold : d₁.lookup ["r", "a"] = some (.file "old".toUTF8) := by
    rw [hlookup, if_neg (by decide), if_neg (by decide)]
    cbv
  have hways := sameWays_put (List.cons_ne_nil "r" ["a"]) (by rw [hold]; trivial) "new".toUTF8
  have hput := lookup_put (d := d₁) (List.cons_ne_nil "r" ["a"]) (.file "new".toUTF8)
  generalize d₁.put ["r", "a"] (.file "new".toUTF8) = d at hlinks hdirectories hways hput
  have hnew : d.lookup ["r", "a"] = some (.file "new".toUTF8) := by rw [hput, if_pos rfl]
  have hcopy : d.lookup ["r", "s", "rp-7-0", "a"] = some (.file "old".toUTF8) := by
    rw [hput, if_neg (by decide), hlookup, if_neg (by decide), if_neg (by decide)]
    cbv
  have hfile : d.locate true "/r/a" = .ok ["r", "a"] :=
    hlinks.locate hdirectories (show oneFileCopied.locate true "/r/a" = .ok ["r", "a"] by cbv)
  refine ⟨d, .edited hmade hways.sameLinks fun more _ => by rw [hput, if_neg (by simp)],
    read_eq_ok_iff.mpr ⟨_, hfile, hnew⟩, ?_⟩
  -- the point is found in the log
  have hlog : d.lookup (["r", "s"] ++ [logName]) =
      some (.file (RestorePoint.logText [oneFilePoint]).toUTF8) := by
    rw [hput, if_neg (by decide), hlookup]
    exact if_pos rfl
  have hstore : d.locate true "/r/s" = .ok ["r", "s"] :=
    hlinks.locate hdirectories (show oneFileCopied.locate true "/r/s" = .ok ["r", "s"] by cbv)
  have hlogPath : d.locate true oneFileStore.logPath = .ok (["r", "s"] ++ [logName]) :=
    locate_join true hstore
      (hdirectories ["r", "s"] (show oneFileCopied.lookup ["r", "s"] = some .directory by cbv))
      isName_logName (by rw [hlog]; simp)
  have hload : oneFileStore.load d = [oneFilePoint] :=
    load_of_text hlogPath hlog (by decide)
  have hfind : oneFileStore.find "rp-7-0" d = .ok oneFilePoint := by
    simp only [find, hload]
    rfl
  have hcheck : oneFileStore.check oneFilePoint = .ok () := by cbv
  obtain ⟨d', hback⟩ := oneFile_putBack hlinks hdirectories hcopy hnew
  exact ⟨d', restore_eq_ok_iff.mpr ⟨hfind, hcheck, hback⟩⟩

/-- **An overwritten file comes back.** The point that is restored is the only one that was made,
and the file holds what it held then. -/
theorem restore_round_trip_overwritten : ∃ made d d',
    oneFileStore.History ["r", "s"] made d ∧ d.read "/r/a" = .ok "new".toUTF8 ∧
      oneFileStore.restore "rp-7-0" d = .ok oneFilePoint d' ∧
        d'.read "/r/a" = .ok "old".toUTF8 := by
  obtain ⟨d, hhistory, hnew, d', hrestore⟩ := oneFile_overwritten
  refine ⟨_, d, d', hhistory, hnew, hrestore, ?_⟩
  obtain ⟨⟨m, hm, -, -, -, hbytes⟩, -⟩ :=
    (restore_round_trip hhistory).2 "rp-7-0" oneFilePoint d' hrestore
  obtain ⟨bytes, hold, hback⟩ := hbytes "a" (List.mem_singleton.mpr rfl)
  have hroot : oneFileStore.root.absolute "a" = "/r/a" := by decide +kernel
  have hfirst : oneFile.read "/r/a" = .ok "old".toUTF8 := by cbv
  rw [List.mem_singleton.mp hm, hroot, hfirst] at hold
  rw [hroot] at hback
  rw [hback, hold]

end RestoreStore

end CodeAtlas
