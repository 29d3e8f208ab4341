import CodeAtlas.Proofs.Restore.Vault

/-!
# What a store retains

Setup: a store has its points in the log and their copies in its directory, where no links lie.
`RestoreStore.Retains` says that these are the youngest of all points, and that nothing is left of
the directories of the others. A step beside the store is no work
(`RestoreStore.Retains.of_inside`), and restoring a point is one
(**`RestoreStore.Retains.restored`**). Making a point adds one and lets the oldest go
(**`RestoreStore.Retains.created`**).
-/

namespace CodeAtlas

open CodeAtlas.Disk CodeAtlas.Path CodeAtlas.Text

namespace RestoreStore

/-- A point, with what the copy of each of its files holds. -/
structure Filed where
  /-- the point -/
  point : RestorePoint
  /-- what the copies hold -/
  holds : String → Except DiskError ByteArray

/-- A point that was made: its copies hold what the files held. -/
def Made.filed (m : Made) (s : RestoreStore) : Filed :=
  ⟨m.point, fun name => m.disk.read (s.root.absolute name)⟩

/-- What is known of a point in the store. -/
structure Filed.Fits (f : Filed) (s : RestoreStore) (vault : Place) (d : Disk) : Prop where
  /-- its time has 64 bits -/
  time : f.point.timestamp < UInt64.size
  /-- its id is that of a point -/
  numbered : ∃ now number, f.point.id = idOf now number
  /-- its files are named by relative paths that lead down -/
  inner : ∀ name ∈ f.point.files, Inner name
  /-- its files do not lie in the store -/
  outside : ∀ name ∈ f.point.files, ∀ d', d.SameLinks d' → ∀ place,
    d'.locate true (s.root.absolute name) = .ok place → ¬vault <+: place

/-- The copies of a point are read, and hold what they should. -/
def Filed.Stored (f : Filed) (s : RestoreStore) (d : Disk) : Prop :=
  ∀ name ∈ f.point.files, ∃ bytes,
    d.read (join (s.pointDirectory f.point.id) name) = .ok bytes ∧ f.holds name = .ok bytes

/-- Of `all` points the youngest ones, `kept`, have their copies in the store. -/
structure Keeps (s : RestoreStore) (vault : Place) (all kept : List Filed) (d : Disk) : Prop where
  /-- the store is at its place -/
  housed : s.Housed vault d
  /-- the path of the root does not need what lies in the store -/
  rooted : d.Clear s.root.directory (Inside vault)
  /-- the points are in order -/
  fits : ∀ f ∈ all, f.Fits s vault d
  /-- no id was given twice -/
  nodup : (all.map fun f => f.point.id).Nodup
  /-- the youngest points are kept -/
  suffix : kept <:+ all
  /-- the store is found, if it keeps any -/
  found : kept ≠ [] → d.locate true s.directory = .ok vault ∧ d.lookup vault = some .directory
  /-- their copies are there -/
  stored : ∀ f ∈ kept, f.Stored s d
  /-- the directories of the others are gone -/
  gone : ∀ f ∈ all, f ∉ kept → d.lookup (vault ++ [f.point.id]) ≠ some .directory

/-- What holds after any run: these points are in the log, too. -/
structure Retains (s : RestoreStore) (vault : Place) (all kept : List Filed) (d : Disk) : Prop
    extends s.Keeps vault all kept d where
  /-- they are in the log -/
  log : pointsIn (d.lookup (vault ++ [logName])) = kept.map Filed.point

variable {s : RestoreStore} {vault : Place} {d d' : Disk} {all kept : List Filed} {f : Filed}
  {name id directory : String} {front rest : List String}

/-! ## Points in the store -/

theorem Filed.Fits.isName (h : f.Fits s vault d) : IsName f.point.id := by
  obtain ⟨now, number, hid⟩ := h.numbered
  exact hid ▸ isName_idOf now number

theorem Filed.Fits.ne_logName (h : f.Fits s vault d) :
    f.point.id ≠ logName ∧ f.point.id ≠ logName ++ ".tmp" := by
  obtain ⟨now, number, hid⟩ := h.numbered
  exact hid ▸ idOf_ne_logName now number

theorem Filed.Fits.sameLinks (h : f.Fits s vault d) (hlinks : d.SameLinks d') : f.Fits s vault d' :=
  ⟨h.time, h.numbered, h.inner, fun name hname d'' hlinks' =>
    h.outside name hname d'' (hlinks.trans hlinks')⟩

/-- The copies of a point stay what they are while directories and links stay, and what is in its
tree. -/
theorem Filed.Stored.mono (h : f.Stored s d) (hseated : s.Seated vault d) (hfits : f.Fits s vault d)
    (hlinks : d.SameLinks d')
    (hdirectories : ∀ p, d.lookup p = some .directory → d'.lookup p = some .directory)
    (htree : ∀ p, vault ++ [f.point.id] <+: p → d'.lookup p = d.lookup p) : f.Stored s d' := by
  intro name hname
  obtain ⟨bytes, hread, hholds⟩ := h name hname
  obtain ⟨place, hlocate, hentry⟩ := read_eq_ok_iff.mp hread
  have hprefix := (hseated.copy_inv hfits.isName (hfits.inner name hname) hlocate).2.1
  exact ⟨bytes,
    read_eq_ok_iff.mpr
    ⟨place, hlinks.locate hdirectories hlocate, (htree place hprefix).trans hentry⟩,
    hholds⟩

/-- They stay what they are, too, when only what lies beside its tree changes. -/
theorem Filed.Stored.congr (h : f.Stored s d) (hhoused : s.Housed vault d)
    (hfound : d.locate true s.directory = .ok vault) (hfits : f.Fits s vault d)
    (hlinks : d.SameLinks d')
    (hsame : ∀ p, ¬Beside vault f.point.id p → d.lookup p = d'.lookup p) : f.Stored s d' := by
  intro name hname
  rw [← read_eq_of_clear hlinks hsame
    (hhoused.clear_copy hfound hfits.isName (hfits.inner name hname))]
  exact h name hname

/-- The points that are listed are those in the log, where its directory is found. -/
theorem Seated.load_eq (h : s.Seated vault d) (hfound : d.locate true s.directory = .ok vault)
    (hdirectory : d.lookup vault = some .directory) :
    s.load d = pointsIn (d.lookup (vault ++ [logName])) :=
  load_eq_pointsIn
    (locate_join true hfound hdirectory isName_logName (h.plain _ (List.cons_ne_nil _ _)))

/-- An empty log lists no points, found or not. -/
theorem Seated.load_eq_nil (h : s.Seated vault d)
    (hlog : pointsIn (d.lookup (vault ++ [logName])) = []) :
    s.load d = [] := by
  cases hlocate : d.locate true s.logPath with
  | error e => exact load_of_locate_error hlocate
  | ok place =>
    obtain ⟨home, hhome, -, hplace⟩ := locate_join_inv hlocate isName_logName
    obtain rfl := h.aims d (.refl d) home hhome
    obtain rfl := hplace (.inr (h.plain _ (List.cons_ne_nil _ _)))
    rw [load_eq_pointsIn hlocate, hlog]

/-- **The points that are kept are listed.** -/
theorem Retains.load_eq (h : s.Retains vault all kept d) : s.load d = kept.map Filed.point := by
  by_cases hkept : kept = []
  · subst hkept
    exact h.housed.load_eq_nil h.log
  · obtain ⟨hfound, hdirectory⟩ := h.found hkept
    rw [h.housed.load_eq hfound hdirectory, h.log]

/-! ## Steps beside the store -/

/-- **A change that leaves the store alone** keeps everything. -/
theorem Retains.of_inside (h : s.Retains vault all kept d) (hlinks : d.SameLinks d')
    (hdirectories : ∀ p, d.lookup p = some .directory → d'.lookup p = some .directory)
    (hinside : ∀ p, Inside vault p → d'.lookup p = d.lookup p) : s.Retains vault all kept d' := by
  refine ⟨⟨h.housed.sameLinks hlinks, h.rooted.sameLinks hlinks,
    fun f hf => (h.fits f hf).sameLinks hlinks,
    h.nodup, h.suffix, fun hne => ?_, fun f hf => ?_, fun f hf hnot => ?_⟩, ?_⟩
  · obtain ⟨hfound, hdirectory⟩ := h.found hne
    exact ⟨hlinks.locate hdirectories hfound, hdirectories _ hdirectory⟩
  · exact (h.stored f hf).mono h.housed.toSeated (h.fits f (h.suffix.mem hf)) hlinks hdirectories
      fun p hp => hinside p (inside_of_isPrefix hp)
  · rw [hinside _ (inside_concat vault _ [])]
    exact h.gone f hf hnot
  · rw [hinside _ (inside_concat vault logName [])]
    exact h.log

/-- Components at the beginning of a joined path are some of the directory's, or those behind them
do not lead up. -/
theorem Inner.front_join (h : Inner name)
    (hjoin : front ++ rest = splitOn '/' (join directory name)) :
    front <+: splitOn '/' directory ∨ ".." ∉ rest := by
  have hsplit : ∃ parts, parts <+: splitOn '/' directory ∧
      front ++ rest = parts ++ splitOn '/' name := by
    rcases splitOn_join_of_relative directory h.relative with hparts | ⟨parts, hdirectory, hparts⟩
    · exact ⟨_, List.prefix_rfl, hjoin.trans hparts⟩
    · exact ⟨parts, hdirectory ▸ List.prefix_append _ _, hjoin.trans hparts⟩
  obtain ⟨parts, hparts, hall⟩ := hsplit
  rcases List.append_eq_append_iff.mp hall with ⟨more, rfl, -⟩ | ⟨more, -, hname⟩
  · exact .inl ((List.prefix_append _ _).trans hparts)
  · refine .inr fun hmem => h.down ?_
    rw [hname]
    exact List.mem_append_right _ hmem

/-- **Restoring a point keeps everything**: no file goes into the store, and no directory is made
there, since the way of a file that came into the store would end there. -/
theorem Retains.restored {point : RestorePoint} (h : s.Retains vault all kept d)
    (hrestore : s.restore id d = .ok point d') : s.Retains vault all kept d' := by
  obtain ⟨hfind, -, hput⟩ := restore_eq_ok_iff.mp hrestore
  have hmem := (mem_of_find hfind).1
  rw [h.load_eq] at hmem
  obtain ⟨f, hf, rfl⟩ := List.mem_map.mp hmem
  have hfits := h.fits f (h.suffix.mem hf)
  have hfills := fills_of_forM hput
  have hseated := h.housed.toSeated.sameLinks hfills.sameLinks
  refine h.of_inside hfills.sameLinks hfills.directories fun p hp => ?_
  rcases hfills.lookup p with hsame | ⟨-, -, path, hpath, front, ⟨rest, hrest⟩, hleads⟩ |
    ⟨path, hpath, hlocate⟩
  · exact hsame
  · obtain ⟨name, hname, rfl⟩ := List.mem_map.mp hpath
    obtain ⟨place, bytes, hlocate, -⟩ := hfills.found _ hpath
    have hplace := hfits.outside name hname d' hfills.sameLinks place hlocate
    rcases (hfits.inner name hname).front_join hrest with ⟨more, hmore⟩ | hdown
    · refine absurd hp (h.rooted p ?_)
      rw [← hmore]
      exact (hleads.visits.sameLinks hfills.sameLinks.symm).append more
    · rw [locate_iff_leads, ← hrest] at hlocate
      obtain ⟨inner, hinner, rfl⟩ := hp
      refine absurd ?_ hplace
      by_cases hend : rest = []
      · rw [hend, List.append_nil] at hlocate
        rw [hlocate.unique (.refl d') hleads]
        exact List.prefix_append _ _
      · obtain ⟨links, mid, hmid, hgo⟩ := hlocate.split hend
        obtain rfl := hmid.unique (.refl d') hleads
        refine (List.prefix_append _ _).trans (hgo.visits.prefix_of_down hdown fun more _ => ?_)
        rw [List.append_assoc]
        exact hseated.plain _ (List.append_ne_nil_of_left_ne_nil hinner _)
  · obtain ⟨name, hname, rfl⟩ := List.mem_map.mp hpath
    obtain ⟨inner, -, rfl⟩ := hp
    exact absurd (List.prefix_append _ _) (hfits.outside name hname d' hfills.sameLinks _ hlocate)

/-! ## Making a point -/

/-- A file of a point that is made was read. -/
theorem Made.Fits.read {m : Made} (h : m.Fits s vault) (hname : name ∈ m.point.files) :
    ∃ bytes, m.disk.lookup (m.origin s name) = some (.file bytes) ∧
      (m.filed s).holds name = .ok bytes := by
  obtain ⟨hlocate, bytes, hbytes⟩ := h.found name hname
  exact ⟨bytes, hbytes, read_eq_ok_iff.mpr ⟨_, hlocate, hbytes⟩⟩

/-- A point that is made fits. -/
theorem Made.Fits.filed_fits {m : Made} (h : m.Fits s vault)
    (hid : ∃ now number, m.point.id = idOf now number) :
    (m.filed s).Fits s vault m.disk where
  time := h.time
  numbered := hid
  inner name hname := (h.named name hname).inner
  outside name hname d' hlinks place hlocate := by
    rw [aims_of_locate (h.found name hname).1 d' hlinks place hlocate]
    exact h.outside name hname

/-- **Copying the files of a new point** puts them into its tree, and else changes nothing in the
store. -/
theorem Retains.copied {m : Made} {e : Disk} (h : s.Retains vault all kept m.disk)
    (hfits : m.Fits s vault) (hne : m.point.files ≠ []) (hid : IsName m.point.id)
    (hfresh : ∀ f ∈ all, f.point.id ≠ m.point.id)
    (hlog : m.point.id ≠ logName) (hbackUp : s.backUp m.point.id m.point.files m.disk = .ok () e) :
    s.Retains vault all kept e ∧ m.disk.SameLinks e ∧
      (e.locate true s.directory = .ok vault ∧ e.lookup vault = some .directory) ∧
      (m.filed s).Stored s e := by
  have hseated := h.housed.toSeated
  have hcopied :=
    (routes_backUp hseated hid hfits.named (fun name hmem => (hfits.found name hmem).1)
    hfits.outside).copied hbackUp
  have hfills := fills_of_forM hbackUp
  have hlinks := hfills.sameLinks
  have hpaths : s.CopiesOf m.point.id
      (m.point.files.map fun name => join (s.pointDirectory m.point.id) name) :=
    List.forall_mem_map.mpr fun name hmem => ⟨name, hfits.named name hmem, rfl⟩
  -- no directory on the way of the store lies in it
  have hbeside : ∀ p, Inside vault p → ¬vault ++ [m.point.id] <+: p →
      e.lookup p = m.disk.lookup p := by
    intro p hinside htree
    rcases h.housed.lookup_of_fills hid hfills hpaths hpaths p with hsame | hin | ⟨-, -, hmade⟩
    · exact hsame
    · exact absurd hin htree
    · exact absurd hinside ((h.housed.sameLinks hlinks).not_inside hmade)
  have hother : ∀ f ∈ all, ∀ p, vault ++ [f.point.id] <+: p → e.lookup p = m.disk.lookup p :=
    fun f hf p hp => hbeside p (inside_of_isPrefix hp) fun hprefix =>
      hfresh f hf (eq_of_isPrefix hp hprefix)
  obtain ⟨name, hmem⟩ := List.exists_mem_of_ne_nil _ hne
  refine ⟨⟨⟨h.housed.sameLinks hlinks, h.rooted.sameLinks hlinks,
    fun f hf => (h.fits f hf).sameLinks hlinks,
    h.nodup, h.suffix, fun hkept => ?_, fun f hf => ?_, fun f hf hnot => ?_⟩, ?_⟩, hlinks,
    found_of_copy (hseated.sameLinks hlinks) hid (hfits.named name hmem) (hcopied.found name hmem),
    fun name hmem => ?_⟩
  · obtain ⟨hfound, hdirectory⟩ := h.found hkept
    exact ⟨hlinks.locate hfills.directories hfound, hfills.directories _ hdirectory⟩
  · have hall := h.suffix.mem hf
    exact (h.stored f hf).mono hseated (h.fits f hall) hlinks hfills.directories (hother f hall)
  · rw [hother f hf _ List.prefix_rfl]
    exact h.gone f hf hnot
  · rw [hbeside _ (inside_concat vault logName []) fun hprefix =>
      hlog (eq_of_prefix_concat hprefix)]
    exact h.log
  · obtain ⟨bytes, hfile, hread⟩ := hfits.read hmem
    obtain ⟨copied, horigin, hgoal⟩ := hcopied.bytes name hmem
    obtain rfl : bytes = copied := by simpa [hfile] using horigin
    exact ⟨bytes, read_eq_ok_iff.mpr ⟨_, hcopied.found name hmem, hgoal⟩, hread⟩

/-- **Evicting the oldest points and logging the others.** -/
theorem Keeps.logged (h : s.Keeps vault all kept d) (hfound : d.locate true s.directory = .ok vault)
    (hdirectory : d.lookup vault = some .directory) (count : Nat)
    (hsave : s.save ((kept.drop count).map Filed.point)
        (s.evict ((kept.take count).map Filed.point) d) =
      .ok () d') : s.Retains vault all (kept.drop count) d' := by
  have hmem : ∀ f ∈ kept, f ∈ all := fun f => h.suffix.mem
  have hids : ∀ point ∈ (kept.take count).map Filed.point, IsName point.id :=
    List.forall_mem_map.mpr fun f hf => (h.fits f (hmem f (List.mem_of_mem_take hf))).isName
  have hlookup := fun p => h.housed.lookup_log hids hfound hdirectory hsave p
  have hnames : ∀ point ∈ kept.map Filed.point, IsName point.id :=
    List.forall_mem_map.mpr fun f hf => (h.fits f (hmem f hf)).isName
  obtain ⟨hlog, hlinks, -⟩ := h.housed.kept_drop hnames
    (List.forall_mem_map.mpr fun f hf => (h.fits f (hmem f hf)).ne_logName.2)
    (by simpa [Function.comp_def] using h.nodup.sublist (h.suffix.sublist.map _)) count
    (by rwa [← List.map_drop, ← List.map_take])
  have houtside : ∀ p, ¬Inside vault p → d'.lookup p = d.lookup p := fun p =>
    h.housed.lookup_log_of_not_inside hids hfound hdirectory hsave
  have hway : d'.locate true s.directory = .ok vault := by
    rw [← locate_congr hlinks (fun p hp => (houtside p hp).symm) h.housed.clear]
    exact hfound
  -- no id is that of a point that stays and of one that goes
  have hother : ∀ f ∈ kept.drop count, ∀ point ∈ (kept.take count).map Filed.point,
      point.id ≠ f.point.id := by
    have hnodup := h.nodup.sublist (h.suffix.sublist.map _)
    rw [← List.take_append_drop count kept, List.map_append] at hnodup
    refine fun f hf => List.forall_mem_map.mpr fun gone hgone => ?_
    exact (List.nodup_append.mp hnodup).2.2 _ (List.mem_map.mpr ⟨gone, hgone, rfl⟩) _
      (List.mem_map.mpr ⟨f, hf, rfl⟩)
  refine ⟨⟨h.housed.sameLinks hlinks, h.rooted.sameLinks hlinks,
    fun f hf => (h.fits f hf).sameLinks hlinks,
    h.nodup, (List.drop_suffix _ _).trans h.suffix, fun _ => ⟨hway, ?_⟩, fun f hf => ?_,
    fun f hf hnot hleft => ?_⟩, ?_⟩
  · rw [houtside _ (not_inside_self vault)]
    exact hdirectory
  · have hkept := List.mem_of_mem_drop hf
    have hfits := h.fits f (hmem f hkept)
    refine (h.stored f hkept).congr h.housed hfound hfits hlinks fun p hp => ?_
    by_cases hinside : Inside vault p
    · have hprefix : vault ++ [f.point.id] <+: p := by
        by_contra hnot
        exact hp ⟨hinside, hnot⟩
      exact (h.housed.lookup_log_of_prefix hids hfound hdirectory hsave hfits.ne_logName
        (hother f hf) hprefix).symm
    · exact (houtside p hinside).symm
  · obtain ⟨hthere, hstays⟩ := h.housed.of_lookup_log hids hfound hdirectory hsave hleft
    by_cases hkept : f ∈ kept
    · rw [← List.take_append_drop count kept, List.mem_append, or_iff_left hnot] at hkept
      exact hstays f.point (List.mem_map.mpr ⟨f, hkept, rfl⟩) rfl
    · exact h.gone f hf hkept hthere
  · rw [hlog, pointsIn_logText, List.map_drop]
    intro p hp
    obtain ⟨f, hf, rfl⟩ := List.mem_map.mp (List.mem_of_mem_drop hp)
    exact (h.fits f (hmem f hf)).time

/-- A point with a new id is one more in the store. -/
theorem Keeps.concat (h : s.Keeps vault all kept d) (hfits : f.Fits s vault d)
    (hfresh : ∀ f' ∈ all, f'.point.id ≠ f.point.id)
    (hfound : d.locate true s.directory = .ok vault ∧ d.lookup vault = some .directory)
    (hstored : f.Stored s d) : s.Keeps vault (all ++ [f]) (kept ++ [f]) d where
  housed := h.housed
  rooted := h.rooted
  fits := List.forall_mem_append.mpr ⟨h.fits, by simpa using hfits⟩
  nodup := by
    rw [List.map_append, List.nodup_append]
    refine ⟨h.nodup, List.nodup_singleton _, fun id hid id' hid' => ?_⟩
    obtain ⟨f', hf', rfl⟩ := List.mem_map.mp hid
    rw [List.mem_singleton.mp hid']
    exact hfresh f' hf'
  suffix := by
    obtain ⟨front, rfl⟩ := h.suffix
    exact ⟨front, (List.append_assoc ..).symm⟩
  found _ := hfound
  stored := List.forall_mem_append.mpr ⟨h.stored, by simpa using hstored⟩
  gone := List.forall_mem_append.mpr
    ⟨fun f' hf' hnot => h.gone f' hf' fun hkept => hnot (List.mem_append_left _ hkept),
      by simp⟩

/-- **Making a point** keeps everything: there is one more, and the oldest beyond the number that is
kept go. -/
theorem Retains.created {now number number' : Nat} {paths : List String} {message : String}
    {point : RestorePoint} (h : s.Retains vault all kept d) (time : now < UInt64.size)
    (fresh : ∀ f ∈ all, f.point.id ≠ idOf now number)
    (outside : ∀ name ∈ point.files, ∀ place,
      d.locate true (s.root.absolute name) = .ok place → ¬vault <+: place)
    (success : s.create now number paths message d = ⟨.ok point, number', d'⟩) :
    let f := (Made.mk point paths d).filed s
    s.Retains vault (all ++ [f]) ((kept ++ [f]).drop ((kept ++ [f]).length - s.maxPoints)) d' := by
  obtain ⟨-, e, ⟨hnames, hpoint, hbackUp⟩, hsave⟩ := create_eq_ok_iff.mp success
  have hid : point.id = idOf now number := by rw [hpoint]
  have hfits := fits_of_names hnames (by rw [hpoint]; exact time) outside
  rw [← hid] at fresh
  obtain ⟨hcopied, hlinks, hfound, hstored⟩ := h.copied hfits (namesOf_spec hnames).1
    (hid ▸ isName_idOf now number) fresh (hid ▸ (idOf_ne_logName now number).1) hbackUp
  intro f
  have hkeeps := hcopied.toKeeps.concat ((hfits.filed_fits ⟨now, number, hid⟩).sameLinks hlinks)
    fresh hfound hstored
  refine hkeeps.logged hfound.1 hfound.2 _ ?_
  have hload : s.load e ++ [point] = (kept ++ [f]).map Filed.point := by
    rw [hcopied.load_eq, List.map_append]
    rfl
  rw [staying, evicted, hload, List.length_map] at hsave
  rwa [List.map_drop, List.map_take]

end RestoreStore

end CodeAtlas
