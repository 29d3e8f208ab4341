import CodeAtlas.Proofs.Disk.Apart
import CodeAtlas.Proofs.Restore.Retention

/-!
# What a point that cannot be made costs

Setup: a store lies at its place, its points are called like points, and their files do not lie in
the store (`RestoreStore.Tidy`). A call that makes a point can fail before anything is written,
while files are copied, or when the log is written. Whatever was listed before is listed then. But
the oldest points go before the log is written: **`RestoreStore.create_failure`** says that a point
can be restored as before, unless the log could not be written, the point was one of those that go,
and it has files.

The tree of a point is apart from the rest of the store: what a call does beside it does not change
how the point is restored (**`RestoreStore.alike_restore`**).
-/

namespace CodeAtlas

open CodeAtlas.Disk CodeAtlas.Path CodeAtlas.Text

namespace RestoreStore

variable {s : RestoreStore} {vault p : Place} {d d' e : Disk} {X : Place → Prop}
  {id name other : String}
  {names paths : List String} {points gone : List RestorePoint} {now number number' : Nat}
  {message : String} {cause : RestoreError}

/-! ## Restoring on disks that differ elsewhere -/

/-- A file is copied alike where neither path comes past the region. -/
theorem alike_copyTo {source target : String} {failed : DiskError → RestoreError}
    (h : AgreeOff X d e) (hsource : d.Clear source X) (htarget : d.Clear target X) :
    Alike X (copyTo source target failed d) (copyTo source target failed e) := by
  have hcopy {d e : Disk} (h : AgreeOff X d e) (hsource : d.Clear source X)
      (htarget : d.Clear target X) :=
    (alike_copy h hsource htarget).reporting failed
  cases hparent : parent? target with
  | none =>
    simp only [copyTo, hparent]
    exact hcopy h hsource htarget
  | some parent =>
    simp only [copyTo, hparent]
    refine ((alike_makeDirectories h (htarget.of_parent? hparent)).reporting _).bind
      fun _ d' e' hmade h' => ?_
    have hlinks := (grows_makeDirectories (reporting_eq_ok.mp hmade)).sameLinks
    exact hcopy h' (hsource.sameLinks hlinks) (htarget.sameLinks hlinks)

/-- So are several files. -/
theorem alike_forM {source target : String → String} {failed : String → DiskError → RestoreError}
    (h : AgreeOff X d e)
    (hclear : ∀ name ∈ names, d.Clear (source name) X ∧ d.Clear (target name) X) :
    Alike X ((names.forM fun name => copyTo (source name) (target name) (failed name)) d)
      ((names.forM fun name => copyTo (source name) (target name) (failed name)) e) := by
  induction names generalizing d e with
  | nil => exact .ok _ h
  | cons name names ih =>
    simp only [List.forM_eq_forM, List.forM_cons] at ih ⊢
    obtain ⟨⟨hsource, htarget⟩, hrest⟩ := List.forall_mem_cons.mp hclear
    refine (alike_copyTo h hsource htarget).bind fun _ d' e' hcopy h' => ih h' fun a ha => ?_
    have hlinks := (fills_of_copyTo hcopy).sameLinks
    exact ⟨(hrest a ha).1.sameLinks hlinks, (hrest a ha).2.sameLinks hlinks⟩

/-- **A point is restored alike** where its copies and its files lie off the region. -/
theorem alike_restore (h : AgreeOff X d e) (hload : s.load e = s.load d)
    (hclear : ∀ point ∈ s.load d, point.id = id → ∀ name ∈ point.files,
      d.Clear (join (s.pointDirectory id) name) X ∧ d.Clear (s.root.absolute name) X) :
    Alike X (s.restore id d) (s.restore id e) := by
  have hfind : s.find id e = s.find id d := by rw [find, find, hload]
  rw [restore, restore, hfind]
  cases hpoint : s.find id d with
  | error cause => exact .error cause h
  | ok point =>
    obtain ⟨hmem, rfl⟩ := mem_of_find hpoint
    cases hcheck : s.check point with
    | error cause =>
      simp only [hcheck]
      exact .error cause h
    | ok =>
      simp only [hcheck]
      have hput : Alike X (s.putBack point d) (s.putBack point e) :=
        alike_forM h (hclear point hmem rfl)
      generalize s.putBack point d = first at hput
      generalize s.putBack point e = second at hput
      cases hput with
      | ok _ h' => exact .ok point h'
      | error cause h' => exact .error cause h'

/-! ## How far a call gets -/

/-- A call that fails finds no names, or cannot copy a file, or cannot log the point. -/
theorem create_eq_error (h : s.create now number paths message d = ⟨.error cause, number', d'⟩) :
    (s.namesOf d paths = .error cause ∧ d' = d) ∨ ∃ names, s.namesOf d paths = .ok names ∧
      (s.backUp (idOf now number) names d = .error cause d' ∨
        ∃ copied, s.backUp (idOf now number) names d = .ok () copied ∧
          s.log ⟨idOf now number, now, names, message⟩ copied = .error cause d') := by
  rw [create] at h
  split at h
  · next hnames =>
    cases h
    exact .inl ⟨hnames, rfl⟩
  · next names hnames =>
    refine .inr ⟨names, hnames, ?_⟩
    split at h
    · cases h
    · next hrecord =>
      cases h
      rw [record] at hrecord
      rcases bind_eq_error.mp hrecord with hbackUp | ⟨_, copied, hbackUp, hrest⟩
      · exact .inl hbackUp
      · rcases bind_eq_error.mp hrest with hlog | ⟨_, _, -, hpure⟩
        · exact .inr ⟨copied, hbackUp, hlog⟩
        · cases hpure

/-- Names that are not found are no matter of the log. -/
theorem ne_log_of_namesOf (h : s.namesOf d paths = .error cause) (c : SaveError) :
    cause ≠ .log c := by
  rintro rfl
  rw [namesOf] at h
  split at h
  · cases h
  · cases hall : paths.mapM (s.fileNameOf d) with
    | ok all => simp [hall, Except.map] at h
    | error cause =>
      simp only [hall, Except.map, Except.error.injEq] at h
      subst h
      obtain ⟨path, -, hfail⟩ := exists_of_mapM hall
      rw [fileNameOf] at hfail
      split at hfail
      · cases hfail
      · split at hfail <;> cases hfail

/-- What a copy that fails reports. -/
theorem copyTo_eq_error {source target : String} {failed : DiskError → RestoreError}
    (h : copyTo source target failed d = .error cause d') :
    (∃ parent c, cause = .directory parent c) ∨ ∃ c, cause = failed c := by
  have hcopy {d : Disk} (h : reporting failed (Disk.copy source target) d = .error cause d') :
      ∃ c, cause = failed c := by
    obtain ⟨c, -, hcause⟩ := reporting_eq_error.mp h
    exact ⟨c, hcause.symm⟩
  cases hparent : parent? target with
  | none =>
    simp only [copyTo, hparent] at h
    exact .inr (hcopy h)
  | some parent =>
    simp only [copyTo, hparent] at h
    rcases bind_eq_error.mp h with hmake | ⟨_, made, -, hfail⟩
    · obtain ⟨c, -, hcause⟩ := reporting_eq_error.mp hmake
      exact .inl ⟨parent, c, hcause.symm⟩
    · exact .inr (hcopy hfail)

/-- Files that cannot be copied are no matter of the log either. -/
theorem ne_log_of_backUp (h : s.backUp id names d = .error cause d') (c : SaveError) :
    cause ≠ .log c := by
  obtain ⟨-, name, -, d₁, -, -, hfail⟩ := forM_eq_error h
  rcases copyTo_eq_error hfail with ⟨parent, c, rfl⟩ | ⟨c, rfl⟩ <;> exact nofun

/-! ## What it changes -/

theorem draft_ne_logName : logName ++ ".tmp" ≠ logName := by
  decide

/-- A tree of the store lies beside the others. -/
theorem beside_of_isPrefix (hne : other ≠ name) (h : vault ++ [other] <+: p) :
    Beside vault name p :=
  ⟨inside_of_isPrefix h, fun hname => hne (eq_of_isPrefix h hname)⟩

/-- Copying files aside, whether it succeeds or not. -/
theorem fills_backUp (s : RestoreStore) (id : String) (hnamed : ∀ name ∈ names, Named name)
    (d : Disk) :
    ∃ paths written, d.Fills ((s.backUp id names).after d) paths written ∧ s.CopiesOf id paths ∧
      s.CopiesOf id written := by
  have hcopies {some : List String} (hsome : ∀ name ∈ some, name ∈ names) :
      s.CopiesOf id (some.map fun name => join (s.pointDirectory id) name) :=
    List.forall_mem_map.mpr fun name hname => ⟨name, hnamed name (hsome name hname), rfl⟩
  have hall : ∀ name ∈ names, name ∈ names := fun _ hname => hname
  rw [Change.after]
  cases hbackUp : s.backUp id names d with
  | ok _ d' => exact ⟨_, _, fills_of_forM hbackUp, hcopies hall, hcopies hall⟩
  | error cause d' =>
    obtain ⟨done, name, rest, d₁, rfl, hdone, hfail⟩ := forM_eq_error hbackUp
    have hdone' : ∀ a ∈ done, a ∈ done ++ name :: rest := fun a ha => List.mem_append_left _ ha
    have hname := hnamed name (List.mem_append_right _ List.mem_cons_self)
    refine ⟨_, _, (fills_of_forM hdone).trans (fills_of_copyTo_error hfail),
      List.forall_mem_append.mpr ⟨hcopies hdone', ?_⟩, ?_⟩
    · rw [List.forall_mem_singleton]
      exact ⟨name, hname, rfl⟩
    · rw [List.append_nil]
      exact hcopies hdone'

/-- Copying files aside changes the tree of its point only, where the store is there. -/
theorem Housed.agree_backUp (h : s.Housed vault d) (hfound : d.locate true s.directory = .ok vault)
    (hdirectory : d.lookup vault = some .directory) (hid : IsName id)
    (hnames : s.namesOf d paths = .ok names)
    (hne : id ≠ other) : AgreeOff (Beside vault other) d ((s.backUp id names).after d) := by
  have hnamed : ∀ name ∈ names, Named name :=
    fun name hname => ((namesOf_spec hnames).2.2.2 name hname).2
  obtain ⟨copies, written, hfills, hpaths, hwritten⟩ := fills_backUp s id hnamed d
  refine ⟨hfills.sameLinks, fun p hp => ?_⟩
  rcases h.lookup_of_fills hid hfills hpaths hwritten p with hsame | htree | ⟨hnone, -, hmade⟩
  · exact hsame.symm
  · exact absurd (beside_of_isPrefix hne htree) hp
  · -- nothing is missing on the way of the store
    rw [lookup_of_madeOn hfound hdirectory hfills.sameLinks hmade] at hnone
    cases hnone

/-- Evictions change the trees of their points only. -/
theorem Housed.agree_evict (h : s.Housed vault d) (hids : ∀ point ∈ gone, IsName point.id)
    (hne : ∀ point ∈ gone, point.id ≠ other) :
    AgreeOff (Beside vault other) d (s.evict gone d) := by
  refine ⟨(evict_keeps h.toSeated hids).1, fun p hp => (h.lookup_evict_of_not_prefix hids ?_).symm⟩
  exact fun point hpoint htree => hp (beside_of_isPrefix (hne point hpoint) htree)

/-- Writing the log that fails changes the draft only. -/
theorem Housed.agree_save_error (h : s.Housed vault d)
    (hfound : d.locate true s.directory = .ok vault)
    (hdirectory : d.lookup vault = some .directory) (hne : logName ++ ".tmp" ≠ other)
    (hsave : s.save points d = .error cause d') : AgreeOff (Beside vault other) d d' := by
  rcases h.after_save_error hfound hdirectory hsave with rfl | ⟨hdead, bytes, rfl⟩
  · exact .refl _ _
  · have hplace := hdead.ne_nil
    refine ⟨(sameWays_put hplace hdead bytes).sameLinks, fun p hp => ?_⟩
    rw [lookup_put hplace, if_neg]
    rintro rfl
    exact hp (beside_of_isPrefix hne List.prefix_rfl)

/-! ## The store afterwards -/

namespace Housed

variable (h : s.Housed vault d) (hfound : d.locate true s.directory = .ok vault)
  (hdirectory : d.lookup vault = some .directory)

include h hfound hdirectory

/-- The store is found while what changes lies beside one of its trees. -/
theorem found_of_agree (hagree : AgreeOff (Beside vault other) d d') :
    d'.locate true s.directory = .ok vault ∧ d'.lookup vault = some .directory := by
  have hclear := h.clear.mono fun p (hp : Beside vault other p) => hp.1
  refine ⟨(hagree.locate hclear).symm.trans hfound,
    (hagree.lookup vault fun hp => ?_).symm.trans hdirectory⟩
  exact not_inside_self vault hp.1

/-- The same points are listed while what changes lies beside the log. -/
theorem load_of_agree (hagree : AgreeOff (Beside vault logName) d d') : s.load d' = s.load d := by
  obtain ⟨hfound', hdirectory'⟩ := h.found_of_agree hfound hdirectory hagree
  have hlog := hagree.lookup (vault ++ [logName]) fun hp => hp.2 List.prefix_rfl
  rw [h.load_eq hfound hdirectory,
    (h.toSeated.sameLinks hagree.sameLinks).load_eq hfound' hdirectory', hlog]

end Housed

/-- The points are in order: they are called like points, and their files are named by relative
paths that lead down and do not need what lies in the store. -/
structure Tidy (s : RestoreStore) (vault : Place) (d : Disk) : Prop extends s.Housed vault d where
  /-- the ids are those of points -/
  numbered : ∀ point ∈ s.load d, ∃ now number, point.id = idOf now number
  /-- the names lead down -/
  inner : ∀ point ∈ s.load d, ∀ name ∈ point.files, Inner name
  /-- the files do not lie in the store -/
  outside : ∀ point ∈ s.load d, ∀ name ∈ point.files, d.Clear (s.root.absolute name) (Inside vault)

/-- The points that go when there is one more: the oldest ones beyond the number that is kept. -/
def overdue (s : RestoreStore) (d : Disk) : List RestorePoint :=
  (s.load d).take ((s.load d).length + 1 - s.maxPoints)

/-- With them the new point goes itself, if none is kept. -/
theorem evicted_eq (s : RestoreStore) (d : Disk) (point : RestorePoint) :
    s.evicted d point = s.overdue d ++ [point].take (1 - s.maxPoints) := by
  have hcount : (s.load d).length + 1 - s.maxPoints - (s.load d).length = 1 - s.maxPoints := by
    omega
  rw [evicted, overdue, List.length_append, List.length_singleton, List.take_append, hcount]

theorem Tidy.isName (h : s.Tidy vault d) {point : RestorePoint} (hpoint : point ∈ s.load d) :
    IsName point.id := by
  obtain ⟨now, number, hid⟩ := h.numbered point hpoint
  exact hid ▸ isName_idOf now number

theorem Tidy.ne_logName (h : s.Tidy vault d) {point : RestorePoint} (hpoint : point ∈ s.load d) :
    point.id ≠ logName ∧ point.id ≠ logName ++ ".tmp" := by
  obtain ⟨now, number, hid⟩ := h.numbered point hpoint
  exact hid ▸ idOf_ne_logName now number

/-! ## A call that fails -/

namespace Tidy

variable (h : s.Tidy vault d) (hlisted : s.load d ≠ [])

include h hlisted

/-- A call that fails at the log has copied its files and let the oldest points go. -/
theorem of_log_error {c : SaveError}
    (hcreate : s.create now number paths message d = ⟨.error (.log c), number', d'⟩) :
    ∃ copied points gone,
      (∀ other, idOf now number ≠ other → AgreeOff (Beside vault other) d copied) ∧
      (∀ point ∈ s.overdue d, point ∈ gone) ∧
      (∀ point ∈ gone, point ∈ s.overdue d ∨ point.id = idOf now number) ∧
      s.save points (s.evict gone copied) = .error (.log c) d' := by
  obtain ⟨hfound, hdirectory⟩ := found_of_load h.aims hlisted
  rcases create_eq_error hcreate with ⟨hfail, -⟩ | ⟨names, hnames, hfail | ⟨copied, hbackUp, hlog⟩⟩
  · exact absurd rfl (ne_log_of_namesOf hfail c)
  · exact absurd rfl (ne_log_of_backUp hfail c)
  · have hcopied : ∀ other, idOf now number ≠ other → AgreeOff (Beside vault other) d copied := by
      intro other hne
      have hagree := h.toHoused.agree_backUp hfound hdirectory (isName_idOf now number) hnames hne
      rwa [Change.after, hbackUp] at hagree
    have hload : s.load copied = s.load d :=
      h.load_of_agree hfound hdirectory (hcopied logName (idOf_ne_logName now number).1)
    have hoverdue : s.overdue copied = s.overdue d := by rw [overdue, overdue, hload]
    rw [log_eq, evicted_eq, hoverdue] at hlog
    refine ⟨copied, _, _, hcopied, fun point hpoint => List.mem_append_left _ hpoint,
      fun point hpoint => ?_, hlog⟩
    refine (List.mem_append.mp hpoint).imp_right fun hnew => ?_
    rw [List.mem_singleton.mp (List.mem_of_mem_take hnew)]

/-- **A call that fails** changes, beside what goes, the tree of the new point and the draft of the
log. -/
theorem agree_of_error (hcreate : s.create now number paths message d = ⟨.error cause, number', d'⟩)
    (hnew : idOf now number ≠ other) (hdraft : logName ++ ".tmp" ≠ other)
    (hstays : (∃ c, cause = .log c) → ∀ point ∈ s.overdue d, point.id ≠ other) :
    AgreeOff (Beside vault other) d d' := by
  obtain ⟨hfound, hdirectory⟩ := found_of_load h.aims hlisted
  by_cases hlog : ∃ c, cause = .log c
  · obtain ⟨c, rfl⟩ := hlog
    obtain ⟨copied, points, gone, hcopied, -, hgone, hsave⟩ := h.of_log_error hlisted hcreate
    have hcopied := hcopied other hnew
    obtain ⟨hfound', hdirectory'⟩ := h.found_of_agree hfound hdirectory hcopied
    have hhoused := h.toHoused.sameLinks hcopied.sameLinks
    have hids : ∀ point ∈ gone, IsName point.id ∧ point.id ≠ other := by
      intro point hpoint
      rcases hgone point hpoint with hover | hid
      · exact ⟨h.isName (List.mem_of_mem_take hover), hstays ⟨c, rfl⟩ point hover⟩
      · exact hid ▸ ⟨isName_idOf now number, hnew⟩
    have hevicted := hhoused.agree_evict (fun point hpoint => (hids point hpoint).1)
      fun point hpoint => (hids point hpoint).2
    obtain ⟨hfound'', hdirectory''⟩ := hhoused.found_of_agree hfound' hdirectory' hevicted
    exact hcopied.trans
      (hevicted.trans ((hhoused.sameLinks hevicted.sameLinks).agree_save_error hfound''
      hdirectory'' hdraft hsave))
  · rcases create_eq_error hcreate with ⟨-, rfl⟩ | ⟨names, hnames, hfail | ⟨copied, -, hfail⟩⟩
    · exact .refl _ _
    · have hagree := h.toHoused.agree_backUp hfound hdirectory (isName_idOf now number) hnames hnew
      rwa [Change.after, hfail] at hagree
    · rw [log_eq] at hfail
      obtain ⟨c, -, rfl⟩ := reporting_eq_error.mp hfail
      exact absurd ⟨c, rfl⟩ hlog

/-- The same points are listed. -/
theorem load_of_error
    (hcreate : s.create now number paths message d = ⟨.error cause, number', d'⟩) :
    s.load d' = s.load d := by
  obtain ⟨hfound, hdirectory⟩ := found_of_load h.aims hlisted
  refine h.load_of_agree hfound hdirectory
    (h.agree_of_error hlisted hcreate (idOf_ne_logName now number).1
    draft_ne_logName fun _ point hpoint => ?_)
  exact (h.ne_logName (List.mem_of_mem_take hpoint)).1

/-- When the log could not be written, nothing is left of the points that went. -/
theorem lookup_of_log_error {c : SaveError}
    (hcreate : s.create now number paths message d = ⟨.error (.log c), number', d'⟩)
    (hfresh : idOf now number ≠ id) (hgone : ∃ point ∈ s.overdue d, point.id = id)
    (htree : d.lookup (vault ++ [id]) = some .directory) (hp : vault ++ [id] <+: p) :
    d'.lookup p = none := by
  obtain ⟨hfound, hdirectory⟩ := found_of_load h.aims hlisted
  obtain ⟨copied, points, gone, hcopied, hall, hof, hsave⟩ := h.of_log_error hlisted hcreate
  obtain ⟨point, hpoint, rfl⟩ := hgone
  have hcopied := hcopied point.id hfresh
  obtain ⟨hfound', hdirectory'⟩ := h.found_of_agree hfound hdirectory hcopied
  have hhoused := h.toHoused.sameLinks hcopied.sameLinks
  have hids : ∀ point ∈ gone, IsName point.id := by
    intro point hpoint
    rcases hof point hpoint with hover | hid
    · exact h.isName (List.mem_of_mem_take hover)
    · exact hid ▸ isName_idOf now number
  have htree' : copied.lookup (vault ++ [point.id]) = some .directory :=
    (hcopied.lookup _ fun hin => hin.2 List.prefix_rfl).symm.trans htree
  have hnone := hhoused.lookup_evict_of_mem hids hfound' hdirectory' (hall point hpoint) htree' hp
  -- the draft lies beside the tree
  have hlinks := (evict_keeps hhoused.toSeated hids).1
  have hdraft := (h.ne_logName (List.mem_of_mem_take hpoint)).2.symm
  have hsaved := (hhoused.sameLinks hlinks).agree_save_error
    ((hhoused.locate_evict hids).trans hfound')
    ((hhoused.lookup_evict_of_not_inside hids (not_inside_self vault)).trans hdirectory') hdraft
      hsave
  rw [← hsaved.lookup p fun hin => hin.2 hp, hnone]

end Tidy

/-- The first copy that is put back stands in the tree of its point: no directory is made there on
the way of its file. -/
theorem Seated.copy_of_putBack {point : RestorePoint} (h : s.Seated vault d) (hid : IsName point.id)
    (hinner : ∀ name ∈ point.files, Inner name)
    (houtside : ∀ name ∈ point.files, d.Clear (s.root.absolute name) (Inside vault))
    (hfiles : point.files ≠ []) (hput : s.putBack point d = .ok () d') :
    d.lookup (vault ++ [point.id]) = some .directory ∧
      ∃ origin bytes, vault ++ [point.id] <+: origin ∧ d.lookup origin = some (.file bytes) := by
  obtain ⟨name, rest, hnames⟩ := List.exists_cons_of_ne_nil hfiles
  have hname : name ∈ point.files := hnames ▸ List.mem_cons_self
  rw [putBack, hnames, List.forM_eq_forM, List.forM_cons] at hput
  obtain ⟨_, _, hfirst, -⟩ := bind_eq_ok.mp hput
  obtain ⟨e, hfills, hcopy⟩ := copyTo_inv hfirst
  obtain ⟨origin, bytes, hsource, hbytes, -⟩ := Disk.copy_inv hcopy
  obtain ⟨-, hprefix, hdirectory⟩ :=
    (h.sameLinks hfills.sameLinks).copy_inv hid (hinner name hname) hsource
  have hsame : ∀ p, Inside vault p → e.lookup p = d.lookup p := by
    intro p hp
    rcases hfills.lookup p with hsame | ⟨-, -, hmade⟩ | ⟨path, hpath, -⟩
    · exact hsame
    · exact absurd hp (((houtside name hname).sameLinks hfills.sameLinks).not_of_madeOn hmade)
    · cases hpath
  refine ⟨?_, origin, bytes, hprefix, ?_⟩
  · rw [← hsame _ (inside_of_isPrefix List.prefix_rfl), hdirectory]
  · rw [← hsame _ (inside_of_isPrefix hprefix), hbytes]

namespace Tidy

variable {point : RestorePoint} {d₁ : Disk} (h : s.Tidy vault d)
  (hfresh : ∀ point ∈ s.load d, point.id ≠ idOf now number)
  (hrestore : s.restore id d = .ok point d₁)

include h hfresh hrestore

/-- A point that does not go can be restored as before. -/
theorem restore_of_error
    (hcreate : s.create now number paths message d = ⟨.error cause, number', d'⟩)
    (hstays : point.files = [] ∨ ((∃ c, cause = .log c) → ∀ old ∈ s.overdue d, old.id ≠ id)) :
    ∃ d₂, s.restore id d' = .ok point d₂ ∧
      ∀ name ∈ point.files, d₂.read (s.root.absolute name) = d₁.read (s.root.absolute name) := by
  obtain ⟨hfind, hcheck, hput⟩ := restore_eq_ok_iff.mp hrestore
  obtain ⟨hmem, rfl⟩ := mem_of_find hfind
  have hlisted := List.ne_nil_of_mem hmem
  have hload := h.load_of_error hlisted hcreate
  rcases hstays with hfiles | hstays
  · -- nothing is put back
    refine ⟨d', restore_eq_ok_iff.mpr ⟨by rw [find, hload, ← find, hfind], hcheck, ?_⟩, ?_⟩
    · rw [putBack, hfiles]
      rfl
    · rw [hfiles]
      exact List.forall_mem_nil _
  · obtain ⟨hfound, -⟩ := found_of_load h.aims hlisted
    have hagree :=
      h.agree_of_error hlisted hcreate (hfresh point hmem).symm (h.ne_logName hmem).2.symm hstays
    have hclear : ∀ listed ∈ s.load d, listed.id = point.id → ∀ name ∈ listed.files,
        d.Clear (join (s.pointDirectory point.id) name) (Beside vault point.id) ∧
          d.Clear (s.root.absolute name) (Beside vault point.id) := fun listed hl _ name hname =>
      ⟨h.toHoused.clear_copy hfound (h.isName hmem) (h.inner listed hl name hname),
        (h.outside listed hl name hname).mono fun _ hp => hp.1⟩
    have halike := alike_restore hagree hload hclear
    rw [hrestore] at halike
    obtain ⟨d₂, hagain, hafter⟩ := halike.of_ok
    refine ⟨d₂, hagain, fun name hname => (hafter.read ?_).symm⟩
    exact (hclear point hmem rfl name hname).2.sameLinks (fills_of_forM hput).sameLinks

/-- A point with files that goes cannot be restored when the log could not be written: it is found
in the log, and its copies are gone. -/
theorem not_restore_of_log_error {c : SaveError}
    (hcreate : s.create now number paths message d = ⟨.error (.log c), number', d'⟩)
    (hgone : ∃ old ∈ s.overdue d, old.id = id) (hfiles : point.files ≠ []) (again : RestorePoint)
    (d₂ : Disk) :
    s.restore id d' ≠ .ok again d₂ := by
  intro hagain
  obtain ⟨hfind, -, hput⟩ := restore_eq_ok_iff.mp hrestore
  obtain ⟨hmem, rfl⟩ := mem_of_find hfind
  have hlisted := List.ne_nil_of_mem hmem
  obtain ⟨hfind', -, hput'⟩ := restore_eq_ok_iff.mp hagain
  rw [find, h.load_of_error hlisted hcreate, ← find, hfind, Except.ok.injEq] at hfind'
  subst hfind'
  have hid := h.isName hmem
  have hinner := h.inner point hmem
  have houtside := h.outside point hmem
  obtain ⟨htree, -⟩ := h.toSeated.copy_of_putBack hid hinner houtside hfiles hput
  have hlinks := (h.agree_of_error hlisted hcreate (idOf_ne_logName now number).1 draft_ne_logName
    fun _ old hold => (h.ne_logName (List.mem_of_mem_take hold)).1).sameLinks
  obtain ⟨-, origin, bytes, hprefix, hbytes⟩ := (h.toSeated.sameLinks hlinks).copy_of_putBack hid
    hinner (fun name hname => (houtside name hname).sameLinks hlinks) hfiles hput'
  rw [h.lookup_of_log_error hlisted hcreate (hfresh point hmem).symm hgone htree hprefix] at hbytes
  cases hbytes

end Tidy

/-- **What a create that fails leaves.** Whatever was listed is listed. A point that could be
restored can be restored, unless the log could not be written, the point is one of those that go
when there is one more, and it has files; and if it can be restored, its files hold afterwards what
they would have held. -/
theorem create_failure (h : s.Tidy vault d)
    (hfresh : ∀ point ∈ s.load d, point.id ≠ idOf now number)
    (hcreate : s.create now number paths message d = ⟨.error cause, number', d'⟩) :
    (s.list d ≠ [] → s.list d' = s.list d) ∧
    ∀ id point d₁, s.restore id d = .ok point d₁ →
      ((∃ again d₂, s.restore id d' = .ok again d₂) ↔
        ¬((∃ c, cause = .log c) ∧ (∃ old ∈ s.overdue d, old.id = id) ∧ point.files ≠ [])) ∧
      ∀ again d₂, s.restore id d' = .ok again d₂ → again = point ∧
        ∀ name ∈ point.files, d₂.read (s.root.absolute name) = d₁.read (s.root.absolute name) := by
  refine ⟨fun hlisted => ?_, fun id point d₁ hrestore => ?_⟩
  · rw [list, Ne, List.reverse_eq_nil_iff] at hlisted
    rw [list, list, h.load_of_error hlisted hcreate]
  have hlost : (∃ again d₂, s.restore id d' = .ok again d₂) →
      ¬((∃ c, cause = .log c) ∧ (∃ old ∈ s.overdue d, old.id = id) ∧ point.files ≠ []) := by
    rintro ⟨again, d₂, hagain⟩ ⟨⟨c, rfl⟩, hgone, hfiles⟩
    exact h.not_restore_of_log_error hfresh hrestore hcreate hgone hfiles again d₂ hagain
  have hkept : ¬((∃ c, cause = .log c) ∧ (∃ old ∈ s.overdue d, old.id = id) ∧ point.files ≠ []) →
      ∃ d₂, s.restore id d' = .ok point d₂ ∧
        ∀ name ∈ point.files, d₂.read (s.root.absolute name) = d₁.read (s.root.absolute name) := by
    intro hstays
    refine h.restore_of_error hfresh hrestore hcreate
      (or_iff_not_imp_left.mpr fun hfiles hlog old hold hid => ?_)
    exact hstays ⟨hlog, ⟨old, hold, hid⟩, hfiles⟩
  refine ⟨⟨hlost, fun hstays => ?_⟩, fun again d₂ hagain => ?_⟩
  · obtain ⟨d₂, hagain, -⟩ := hkept hstays
    exact ⟨point, d₂, hagain⟩
  · obtain ⟨d₃, hagain', hreads⟩ := hkept (hlost ⟨again, d₂, hagain⟩)
    rw [hagain] at hagain'
    cases hagain'
    exact ⟨rfl, hreads⟩

/-! ## A directory where the draft goes

A store keeps one point, and it has one. Another point is made of the same file, but the log cannot
be written: a directory stands where its draft goes. -/

/-- A file cannot be saved where a directory has the name of its draft. -/
theorem save_of_directory {directory : String} {home : Place}
    (hfound : d.locate true directory = .ok home)
    (hdirectory : d.lookup home = some .directory) (hname : IsName (name ++ ".tmp"))
    (hdraft : d.lookup (home ++ [name ++ ".tmp"]) = some .directory) (text : String) :
    Disk.save directory name text d = .error (.write (join directory (name ++ ".tmp")) .isDirectory)
      d := by
  obtain ⟨hslashes, hend⟩ := withoutEndSlashes_join directory hname
  have hlocate := locate_join true hfound hdirectory hname (by simp [hdraft])
  have hwritable : d.writable (join directory (name ++ ".tmp")) = .error .isDirectory := by
    rw [writable, hslashes, hlocate]
    simp only [hend, Bool.false_eq_true, if_false, hdraft]
  have hwrite : write (join directory (name ++ ".tmp")) text.toUTF8 d = .error .isDirectory d := by
    rw [write, hwritable]
  have hmake := makeDirectories_of_directory hfound hdirectory
  exact bind_eq_error.mpr (.inr ⟨(), d, reporting_eq_ok.mpr hmake,
    bind_eq_error.mpr (.inl (reporting_eq_error.mpr ⟨_, hwrite, rfl⟩))⟩)

/-- The disk of the old point, with the directory. -/
def blocked (log : ByteArray) : Disk :=
  (aged log).put ["r", "s", logName ++ ".tmp"] .directory

/-- There are no links. -/
theorem blocked_plain (log : ByteArray) (q : Place) (target : String) :
    (blocked log).lookup q ≠ some (.link target) := by
  rw [blocked, lookup_put (by simp)]
  split_ifs
  · simp
  · exact aged_plain log q target

/-- What stands on the disk. -/
theorem blocked_lookup (log : ByteArray) : (blocked log).lookup ["r"] = some .directory ∧
    (blocked log).lookup ["r", "a"] = some (.file "old".toUTF8) ∧
    (blocked log).lookup ["r", "s"] = some .directory ∧
    (blocked log).lookup ["r", "s", logName] = some (.file log) ∧
    (blocked log).lookup ["r", "s", logName ++ ".tmp"] = some .directory ∧
    (blocked log).lookup ["r", "s", "rp-1-0"] = some .directory ∧
    (blocked log).lookup ["r", "s", "rp-1-0", "a"] = some (.file "older".toUTF8) ∧
    ∀ more, (blocked log).lookup (["r", "s"] ++ "rp-7-0" :: more) = none := by
  refine ⟨?_, ?_, ?_, ?_, ?_, ?_, ?_, fun more => ?_⟩ <;>
    simp [blocked, aged, oneFile, lookup_put, lookup_empty, logName]

/-- The points of the store are in order. -/
theorem blocked_tidy : oneFileStore.Tidy ["r", "s"] (blocked agedLog) := by
  obtain ⟨hroot, hfile, hstore, hlog, -⟩ := blocked_lookup agedLog
  have hlisted : oneFileStore.load (blocked agedLog) = [agedPoint] :=
    load_of_aged hroot hstore hlog 1
  have hplain := blocked_plain agedLog
  refine ⟨housed_of_plain (oneFileStore_locate hroot hstore) (by decide +kernel) hplain, ?_, ?_, ?_⟩
  all_goals rw [hlisted, List.forall_mem_singleton]
  · exact ⟨1, 0, by cbv⟩
  all_goals rw [show agedPoint.files = ["a"] from rfl, List.forall_mem_singleton]
  · exact ⟨by decide, by decide +kernel⟩
  · refine clear_of_plain (oneFileStore_locate_file hroot hfile) (by decide +kernel) hplain
      fun p hp hin => ?_
    obtain ⟨more, -, rfl⟩ := hin
    exact absurd ((List.prefix_append ["r", "s"] more).trans hp) (by decide)

/-- The old point can be restored. -/
theorem blocked_restore :
    ∃ d, oneFileStore.restore agedPoint.id (blocked agedLog) = .ok agedPoint d := by
  obtain ⟨hroot, hfile, hstore, hlog, -, hdirectory, hcopy, -⟩ := blocked_lookup agedLog
  have hlisted : oneFileStore.load (blocked agedLog) = [agedPoint] :=
    load_of_aged hroot hstore hlog 1
  have htop : (blocked agedLog).locate true "/r" = .ok ["r"] := oneFileStore_locate_root hroot
  have hname : IsName "a" := ⟨by decide, by decide, by decide, by decide⟩
  have hsource :
      (blocked agedLog).locate true (join (oneFileStore.pointDirectory agedPoint.id) "a") =
      .ok ["r", "s", "rp-1-0", "a"] :=
    locate_join true (aged_locate true hroot hstore hdirectory) hdirectory hname (by simp [hcopy])
  obtain ⟨d, hput⟩ :
      ∃ d, Disk.copy (join (oneFileStore.pointDirectory agedPoint.id) "a") (join "/r" "a")
      (blocked agedLog) = .ok () d :=
    ⟨_, copy_eq hsource hcopy htop hroot hname (by simp [hfile, Dead]) (by decide)⟩
  have htarget : oneFileStore.root.absolute "a" = join "/r" "a" := by
    rw [oneFileStore_absolute]
    simp [join, isAbsolute]
  have hone :
      copyTo (join (oneFileStore.pointDirectory agedPoint.id) "a") (oneFileStore.root.absolute "a")
      (.putBack "a" agedPoint.id) (blocked agedLog) = .ok () d := by
    rw [htarget]
    exact copyTo_of_copy (by cbv) (makeDirectories_of_directory htop hroot) hput
  have hcheck : oneFileStore.check agedPoint = .ok () := by cbv
  refine ⟨d, restore_eq_ok_iff.mpr ⟨?_, hcheck, ?_⟩⟩
  · simp [find, hlisted]
  · rw [putBack, List.forM_eq_forM, show agedPoint.files = ["a"] from rfl, List.forM_cons]
    exact bind_eq_ok.mpr ⟨(), _, hone, rfl⟩

/-- The new point cannot be logged: the draft is not written. -/
theorem blocked_create : ∃ c d, oneFileStore.create 7 0 ["a"] "before" (blocked agedLog) =
    ⟨.error (.log c), 1, d⟩ := by
  obtain ⟨hroot, hfile, hstore, hlog, hdraft, -, -, hnew⟩ := blocked_lookup agedLog
  have hnames : oneFileStore.namesOf (blocked agedLog) ["a"] = .ok ["a"] := by
    generalize agedLog = log
    cbv
  have hbackUp := oneFileStore_backUp hroot hfile hstore hnew
  -- what is copied aside leaves the rest
  have hsame : ∀ p, ¬["r", "s", "rp-7-0"] <+: p →
      (((blocked agedLog).put ["r", "s", "rp-7-0"] .directory).put ["r", "s", "rp-7-0", "a"]
        (.file "old".toUTF8)).lookup p = (blocked agedLog).lookup p := by
    intro p hp
    rw [lookup_put (by simp), lookup_put (by simp), if_neg, if_neg]
    · rintro rfl
      exact hp List.prefix_rfl
    · rintro rfl
      exact hp (by decide)
  generalize ((blocked agedLog).put ["r", "s", "rp-7-0"] .directory).put ["r", "s", "rp-7-0", "a"]
    (.file "old".toUTF8) = copied at hbackUp hsame
  have hroot' := (hsame ["r"] (by decide)).trans hroot
  have hstore' := (hsame ["r", "s"] (by decide)).trans hstore
  have hlisted : oneFileStore.load copied = [agedPoint] :=
    load_of_aged hroot' hstore' ((hsame _ (by decide)).trans hlog) 1
  have hhoused := blocked_tidy.toHoused.sameLinks (fills_of_forM hbackUp).sameLinks
  have hids : ∀ point ∈ [agedPoint], IsName point.id :=
    List.forall_mem_singleton.mpr ⟨by decide, by decide, by decide, by decide⟩
  -- nor does the eviction take the directory
  have hleft : (oneFileStore.evict [agedPoint] copied).lookup (["r", "s"] ++ [logName ++ ".tmp"]) =
      some .directory := by
    rw [hhoused.lookup_evict_of_not_prefix hids (List.forall_mem_singleton.mpr (by decide +kernel)),
      hsame _ (by decide +kernel)]
    exact hdraft
  have hsave := save_of_directory
    ((hhoused.locate_evict hids).trans (oneFileStore_locate hroot' hstore'))
    ((hhoused.lookup_evict_of_not_inside hids (not_inside_self _)).trans hstore') isName_draft hleft
    (RestorePoint.logText [oneFilePoint])
  obtain ⟨c, d, hlogged⟩ : ∃ c d, oneFileStore.log oneFilePoint copied = .error (.log c) d := by
    rw [log_eq, staying, evicted, hlisted]
    exact ⟨_, _, reporting_eq_error.mpr ⟨_, hsave, rfl⟩⟩
  have hrecord :
      oneFileStore.record (idOf 7 0) 7 ["a"] "before" (blocked agedLog) = .error (.log c) d := by
    rw [record, show idOf 7 0 = "rp-7-0" by cbv]
    exact bind_eq_error.mpr (.inr ⟨(), copied, hbackUp, bind_eq_error.mpr (.inl hlogged)⟩)
  refine ⟨c, d, ?_⟩
  simp only [create, hnames, hrecord]

/-- **A point is lost** when the log cannot be written: it is listed, but it cannot be restored any
more. -/
theorem create_failure_loses : ∃ cause d, oneFileStore.create 7 0 ["a"] "before" (blocked agedLog) =
      ⟨.error cause, 1, d⟩ ∧
    oneFileStore.list d = [agedPoint] ∧
    (∃ d₁, oneFileStore.restore agedPoint.id (blocked agedLog) = .ok agedPoint d₁) ∧
    ¬∃ again d₂, oneFileStore.restore agedPoint.id d = .ok again d₂ := by
  obtain ⟨hroot, -, hstore, hlog, -⟩ := blocked_lookup agedLog
  have hlisted : oneFileStore.load (blocked agedLog) = [agedPoint] :=
    load_of_aged hroot hstore hlog 1
  have hlist : oneFileStore.list (blocked agedLog) = [agedPoint] := by
    rw [list, hlisted, List.reverse_singleton]
  have hfresh : ∀ point ∈ oneFileStore.load (blocked agedLog), point.id ≠ idOf 7 0 := by
    rw [hlisted, List.forall_mem_singleton, show idOf 7 0 = "rp-7-0" by cbv]
    decide
  obtain ⟨c, d, hcreate⟩ := blocked_create
  obtain ⟨d₁, hrestore⟩ := blocked_restore
  obtain ⟨hsame, hpoints⟩ := create_failure blocked_tidy hfresh hcreate
  refine ⟨_, d, hcreate, (hsame (by simp [hlist])).trans hlist, ⟨d₁, hrestore⟩, ?_⟩
  rw [(hpoints _ _ _ hrestore).1, not_not]
  refine ⟨⟨c, rfl⟩, ⟨agedPoint, ?_, rfl⟩, List.cons_ne_nil _ _⟩
  rw [overdue, hlisted]
  exact List.mem_singleton.mpr rfl

end RestoreStore

end CodeAtlas
