import Mathlib
import CodeAtlas.Proofs.Restore.Retained
import CodeAtlas.Proofs.Restore.RoundTrip

/-!
# Which points a store keeps

Setup: a store is opened on a log that holds some points (`RestoreStore.Opened`), and then points
are made and restored (`RestoreStore.Run`). **`RestoreStore.retention`** says what the log holds
after any such run: the youngest of all points, the ones it was opened with included, as many as the
store keeps. Their copies are in the store, and nothing is left of the directories of the others.

No links may lie in the store: where the draft of the log is a link to the log, writing the log
loses all points (`RestoreStore.retention_fails_at_link`).
-/

namespace CodeAtlas

open CodeAtlas.Disk CodeAtlas.Path CodeAtlas.Text

namespace RestoreStore

/-- The store is opened: its log holds the points `first`, and their copies are there. -/
structure Opened (s : RestoreStore) (vault : Place) (first : List RestorePoint) (d : Disk) : Prop
    extends s.Housed vault d where
  /-- the path of the root does not need what lies in the store -/
  rooted : d.Clear s.root.directory (Inside vault)
  /-- the points are listed -/
  listed : s.load d = first
  /-- nothing else is in the log, even if its directory is not found yet -/
  log : pointsIn (d.lookup (vault ++ [logName])) = first
  /-- the ids are those of points -/
  numbered : ∀ p ∈ first, ∃ now number, p.id = idOf now number
  /-- no id is given twice -/
  nodup : (first.map RestorePoint.id).Nodup
  /-- the files are named by relative paths that lead down -/
  inner : ∀ p ∈ first, ∀ name ∈ p.files, Inner name
  /-- their copies are there -/
  copied : ∀ p ∈ first, ∀ name ∈ p.files, ∃ bytes, d.read (join (s.pointDirectory p.id) name) =
    .ok bytes
  /-- and they do not lie in the store -/
  outside : ∀ p ∈ first, ∀ name ∈ p.files, ∀ d', d.SameLinks d' → ∀ place,
    d'.locate true (s.root.absolute name) = .ok place → ¬vault <+: place

/-- A list of the points that were made since a store was opened on the disk `opened` with the
points `first`, the oldest first, and the disk on which the calls end. Listing the points changes
nothing, so it is no step. -/
inductive Run (s : RestoreStore) (vault : Place) (first : List RestorePoint) (opened : Disk) :
    List Made → Disk → Prop where
  /-- nothing was done yet -/
  | start : Run s vault first opened [] opened
  /-- a point is made of files that do not lie in the store; its id is new -/
  | created {made : List Made} {d d' : Disk} {now : Nat} {paths : List String} {message : String}
      {point : RestorePoint} (before : Run s vault first opened made d) (time : now < UInt64.size)
      (fresh : ∀ p ∈ first, p.id ≠ idOf now made.length)
      (outside : ∀ name ∈ point.files, ∀ place,
        d.locate true (s.root.absolute name) = .ok place → ¬vault <+: place)
      (success : s.create now made.length paths message d = ⟨.ok point, made.length + 1, d'⟩) :
      Run s vault first opened (made ++ [⟨point, paths, d⟩]) d'
  /-- a point is restored -/
  | restored {made : List Made} {d d' : Disk} {id : String} {point : RestorePoint}
      (before : Run s vault first opened made d) (success : s.restore id d = .ok point d') :
      Run s vault first opened made d'
  /-- others change files and make directories, but not in the store -/
  | edited {made : List Made} {d d' : Disk} (before : Run s vault first opened made d)
      (links : d.SameLinks d')
      (directories : ∀ p, d.lookup p = some .directory → d'.lookup p = some .directory)
      (inside : ∀ p, Inside vault p → d'.lookup p = d.lookup p) : Run s vault first opened made d'

variable {s : RestoreStore} {vault : Place} {first : List RestorePoint} {opened d d' : Disk}
  {made : List Made} {name id : String}

/-- A point that a store is opened with: its copies hold what they hold. -/
def filedOn (s : RestoreStore) (d : Disk) (p : RestorePoint) : Filed :=
  ⟨p, fun name => d.read (join (s.pointDirectory p.id) name)⟩

/-- How many points have gone: none before the first one is made, and then those beyond the number
that is kept. -/
def excess (s : RestoreStore) (first made : Nat) : Nat :=
  if made = 0 then 0 else first + made - s.maxPoints

/-- All points that were ever in the store, the oldest first. -/
def filedPoints (s : RestoreStore) (first : List RestorePoint) (opened : Disk) (made : List Made) :
    List Filed :=
  first.map (s.filedOn opened) ++ made.map fun m => m.filed s

/-- A store that is opened keeps its points. -/
theorem Opened.retains (h : s.Opened vault first opened) :
    s.Retains vault (first.map (s.filedOn opened)) (first.map (s.filedOn opened)) opened := by
  refine ⟨⟨h.toHoused, h.rooted, List.forall_mem_map.mpr fun p hp => ?_, ?_, List.suffix_rfl,
    fun hne => ?_,
    List.forall_mem_map.mpr fun p hp name hname => ?_, fun f hf hnot => absurd hf hnot⟩, ?_⟩
  · exact ⟨timestamp_lt_of_pointsIn p (h.log ▸ hp), h.numbered p hp, h.inner p hp, h.outside p hp⟩
  · rw [List.map_map]
    exact h.nodup
  · refine found_of_load h.aims ?_
    rw [h.listed]
    exact fun hnil => hne (by rw [hnil, List.map_nil])
  · obtain ⟨bytes, hread⟩ := h.copied p hp name hname
    exact ⟨bytes, hread, hread⟩
  · rw [h.log, List.map_map]
    exact (List.map_id _).symm

/-- The points that were made have the numbers below that of the next one. -/
theorem Run.numbered (h : s.Run vault first opened made d) :
    ∀ m ∈ made, ∃ now number, number < made.length ∧ m.point.id = idOf now number := by
  induction h with
  | start => exact nofun
  | @created made d d' now paths message point _ _ _ _ success ih =>
    obtain ⟨-, e, ⟨-, hpoint, -⟩, -⟩ := create_eq_ok_iff.mp success
    rw [List.length_append, List.length_singleton]
    refine List.forall_mem_append.mpr ⟨fun m hm => ?_, ?_⟩
    · obtain ⟨now, number, hlt, hid⟩ := ih m hm
      exact ⟨now, number, by omega, hid⟩
    · rw [List.forall_mem_singleton]
      exact ⟨now, made.length, by omega, by rw [hpoint]⟩
  | restored _ _ ih => exact ih
  | edited _ _ _ _ ih => exact ih

/-- **What any run keeps.** The induction follows the calls. -/
theorem Run.retains (h₀ : s.Opened vault first opened) (h : s.Run vault first opened made d) :
    s.Retains vault (s.filedPoints first opened made)
      ((s.filedPoints first opened made).drop (s.excess first.length made.length)) d := by
  induction h with
  | start => simpa [filedPoints, excess] using h₀.retains
  | @created made d d' now paths message point before time fresh outside success ih =>
    have hfresh : ∀ f ∈ s.filedPoints first opened made, f.point.id ≠ idOf now made.length := by
      refine List.forall_mem_append.mpr
        ⟨List.forall_mem_map.mpr fresh, List.forall_mem_map.mpr fun m hm heq => ?_⟩
      obtain ⟨now', number, hlt, hid⟩ := before.numbered m hm
      exact absurd (idOf_inj (hid.symm.trans heq)) (Nat.ne_of_lt hlt)
    have hnext := ih.created time hfresh outside success
    have hall : s.filedPoints first opened (made ++ [⟨point, paths, d⟩]) =
        s.filedPoints first opened made ++ [(Made.mk point paths d).filed s] := by
      simp [filedPoints]
    have hlength : (s.filedPoints first opened made).length = first.length + made.length := by
      simp [filedPoints]
    have hcount : s.excess first.length made.length ≤ (s.filedPoints first opened made).length := by
      rw [hlength, excess]
      split_ifs <;> omega
    -- those that went before, and those that go now
    dsimp only at hnext
    rw [← List.drop_append_of_le_length hcount, List.drop_drop, ← hall] at hnext
    convert hnext using 2
    simp only [List.length_drop, hall, List.length_append, List.length_singleton, hlength, excess,
      Nat.succ_ne_zero, if_false]
    split_ifs <;> omega
  | restored _ success ih => exact ih.restored success
  | edited _ links directories inside ih => exact ih.of_inside links directories inside

/-- Where no directory stands its path names none. -/
theorem Seated.isDirectory_eq_false (h : s.Seated vault d) (hid : IsName id)
    (hgone : d.lookup (vault ++ [id]) ≠ some .directory) :
    d.isDirectory (s.pointDirectory id) = false := by
  rw [Disk.isDirectory]
  split
  · next hfind =>
    obtain ⟨place, hlocate, hentry⟩ := find_eq_ok_iff.mp hfind
    obtain ⟨home, hhome, -, hplace⟩ := locate_join_inv hlocate hid
    obtain rfl := h.aims d (.refl d) home hhome
    obtain rfl := hplace (.inr (h.plain _ (List.cons_ne_nil _ _)))
    exact absurd hentry hgone
  · rfl

/-- **Which points a store keeps** after any run of calls that succeed: the youngest of all points,
those that it was opened with included, listed with the newest first. Before the first point is made
none goes, and then only so many are kept. No id is listed twice. The copies of a listed point hold
what they held when the store was opened, or what its files held when it was made, and nothing is
left of the directory of a point that is not listed. -/
theorem retention (h₀ : s.Opened vault first opened) (h : s.Run vault first opened made d) :
    s.list d = ((first ++ made.map Made.point).drop (s.excess first.length made.length)).reverse ∧
      (s.list d).length ≤ max s.maxPoints first.length ∧
      (made ≠ [] → (s.list d).length ≤ s.maxPoints) ∧
      ((s.list d).map RestorePoint.id).Nodup ∧
      (∀ p ∈ s.list d, ∀ name ∈ p.files, ∃ bytes,
        d.read (join (s.pointDirectory p.id) name) = .ok bytes ∧
          (p ∈ first ∧ opened.read (join (s.pointDirectory p.id) name) = .ok bytes ∨
            ∃ m ∈ made, m.point = p ∧ m.disk.read (s.root.absolute name) = .ok bytes)) ∧
      ∀ p ∈ first ++ made.map Made.point, p ∉ s.list d →
        d.isDirectory (s.pointDirectory p.id) = false := by
  have hretains := h.retains h₀
  have hpoints :
      (s.filedPoints first opened made).map Filed.point = first ++ made.map Made.point := by
    simp only [filedPoints, List.map_append, List.map_map]
    exact congrArg (· ++ made.map Made.point) (List.map_id first)
  have hload := hretains.load_eq
  rw [List.map_drop, hpoints] at hload
  have hlist : ∀ p, p ∈ s.list d ↔
      ∃ f ∈ (s.filedPoints first opened made).drop (s.excess first.length made.length),
        f.point = p := by
    intro p
    rw [list, List.mem_reverse, hretains.load_eq, List.mem_map]
  have hlength :
      (s.list d).length = first.length + made.length - s.excess first.length made.length := by
    rw [list, List.length_reverse, hload, List.length_drop, List.length_append, List.length_map]
  refine ⟨by rw [list, hload], ?_, fun hmade => ?_, ?_, fun p hp name hname => ?_,
    fun p hp hnot => ?_⟩
  · rw [hlength, excess]
    split_ifs <;> omega
  · rw [hlength, excess, if_neg (List.length_eq_zero_iff.not.mpr hmade)]
    omega
  · rw [list, List.map_reverse, List.nodup_reverse, hload, List.map_drop, ← hpoints, List.map_map]
    exact hretains.nodup.sublist (List.drop_sublist _ _)
  · obtain ⟨f, hf, rfl⟩ := (hlist p).mp hp
    have hall := hretains.suffix.mem hf
    obtain ⟨bytes, hread, hholds⟩ := hretains.stored f hf name hname
    refine ⟨bytes, hread, ?_⟩
    rcases List.mem_append.mp hall with hold | hnew
    · obtain ⟨p, hfirst, rfl⟩ := List.mem_map.mp hold
      exact .inl ⟨hfirst, hholds⟩
    · obtain ⟨m, hm, rfl⟩ := List.mem_map.mp hnew
      exact .inr ⟨m, hm, rfl, hholds⟩
  · rw [← hpoints] at hp
    obtain ⟨f, hf, rfl⟩ := List.mem_map.mp hp
    exact hretains.housed.isDirectory_eq_false (hretains.fits f hf).isName
      (hretains.gone f hf fun hkept => hnot ((hlist _).mpr ⟨f, hkept, rfl⟩))

/-! ## A store with an old point

A store keeps one point, and it is opened with one. Another point is made of the same file. -/

/-- The point that the store is opened with. -/
def agedPoint : RestorePoint :=
  ⟨"rp-1-0", 1, ["a"], "first"⟩

/-- The root of a file, and a store with a log and the copies of its point. -/
def aged (log : ByteArray) : Disk :=
  ((oneFile.put ["r", "s", logName] (.file log)).put ["r", "s", "rp-1-0"] .directory).put
    ["r", "s", "rp-1-0", "a"] (.file "older".toUTF8)

/-- The disk when the file has been copied, before the new point is logged. -/
def agedCopied (log : ByteArray) : Disk :=
  ((aged log).put ["r", "s", "rp-7-0"] .directory).put ["r", "s", "rp-7-0", "a"]
    (.file "old".toUTF8)

/-- The log of the old point. -/
def agedLog : ByteArray :=
  (RestorePoint.logText [agedPoint]).toUTF8

/-- There are no links. -/
theorem aged_plain (log : ByteArray) (q : Place) (target : String) :
    (aged log).lookup q ≠ some (.link target) := by
  simp only [aged, oneFile, lookup_put, ne_eq, reduceCtorEq, not_false_eq_true]
  split_ifs <;> simp [lookup_empty]

/-- The old point is listed while its log is there. -/
theorem load_of_aged {d : Disk} (hroot : d.lookup ["r"] = some .directory)
    (hstore : d.lookup ["r", "s"] = some .directory)
    (hlog : d.lookup ["r", "s", logName] = some (.file agedLog)) (count : Nat) :
    load ⟨oneFileStore.root, oneFileStore.directory, count⟩ d = [agedPoint] :=
  load_of_text
    (locate_join true (oneFileStore_locate hroot hstore) hstore isName_logName (by simp [hlog]))
    hlog (by decide)

/-- What stands on the disk. -/
theorem aged_lookup (log : ByteArray) : (aged log).lookup ["r"] = some .directory ∧
    (aged log).lookup ["r", "a"] = some (.file "old".toUTF8) ∧
    (aged log).lookup ["r", "s"] = some .directory ∧
    (aged log).lookup ["r", "s", logName] = some (.file log) ∧
    (aged log).lookup ["r", "s", "rp-1-0"] = some .directory ∧
    (aged log).lookup ["r", "s", "rp-1-0", "a"] = some (.file "older".toUTF8) ∧
    ∀ more, (aged log).lookup (["r", "s"] ++ "rp-7-0" :: more) = none := by
  refine ⟨?_, ?_, ?_, ?_, ?_, ?_, fun more => ?_⟩ <;>
    simp [aged, oneFile, lookup_put, lookup_empty, logName]

/-- Copying the file leaves the rest. -/
theorem agedCopied_lookup (log : ByteArray) : (agedCopied log).lookup ["r"] = some .directory ∧
    (agedCopied log).lookup ["r", "s"] = some .directory ∧
    (agedCopied log).lookup ["r", "s", logName] = some (.file log) ∧
    (agedCopied log).lookup ["r", "s", logName ++ ".tmp"] = none ∧
    (agedCopied log).lookup ["r", "s", "rp-1-0"] = some .directory := by
  refine ⟨?_, ?_, ?_, ?_, ?_⟩ <;>
    simp [agedCopied, aged, oneFile, lookup_put, lookup_empty, logName]

/-- The file is found outside the store. -/
theorem aged_outside (log : ByteArray) {d : Disk} {place : Place} (hlinks : (aged log).SameLinks d)
    (hlocate : d.locate true (oneFileStore.root.absolute "a") = .ok place) :
    ¬["r", "s"] <+: place := by
  obtain ⟨hroot, hfile, -⟩ := aged_lookup log
  rw [aims_of_locate (oneFileStore_locate_file hroot hfile) d hlinks place hlocate]
  decide

/-- The path of the directory of the old point leads there. -/
theorem aged_locate {d : Disk} (follow : Bool) (hroot : d.lookup ["r"] = some .directory)
    (hstore : d.lookup ["r", "s"] = some .directory)
    (hdirectory : d.lookup ["r", "s", "rp-1-0"] = some .directory) :
    d.locate follow (oneFileStore.pointDirectory agedPoint.id) = .ok ["r", "s", "rp-1-0"] :=
  locate_join follow (oneFileStore_locate hroot hstore) hstore
    ⟨by decide, by decide, by decide, by decide⟩
    (by simp [agedPoint, hdirectory])

/-- The copy of the old point is read. -/
theorem aged_read {d : Disk} {bytes : ByteArray} (hroot : d.lookup ["r"] = some .directory)
    (hstore : d.lookup ["r", "s"] = some .directory)
    (hdirectory : d.lookup ["r", "s", "rp-1-0"] = some .directory)
    (hcopy : d.lookup ["r", "s", "rp-1-0", "a"] = some (.file bytes)) :
    d.read (join (oneFileStore.pointDirectory agedPoint.id) "a") = .ok bytes :=
  read_eq_ok_iff.mpr ⟨_, locate_join true (aged_locate true hroot hstore hdirectory) hdirectory
    ⟨by decide, by decide, by decide, by decide⟩ (by simp [hcopy]), hcopy⟩

/-- The store is opened with the point. -/
theorem aged_opened : oneFileStore.Opened ["r", "s"] [agedPoint] (aged agedLog) := by
  obtain ⟨hroot, -, hstore, hlog, hdirectory, hcopy, -⟩ := aged_lookup agedLog
  have hpoints : pointsIn (some (.file agedLog)) = [agedPoint] := pointsIn_logText (by decide)
  have hid : agedPoint.id = idOf 1 0 := by cbv
  have hrooted : (aged agedLog).Clear oneFileStore.root.directory (Inside ["r", "s"]) := by
    refine clear_of_plain (oneFileStore_locate_root hroot) (by decide +kernel) (aged_plain agedLog)
      fun p hp => ?_
    exact not_inside_of_isPrefix (hp.trans ⟨["s"], rfl⟩)
  refine ⟨housed_of_plain (oneFileStore_locate hroot hstore) (by decide +kernel)
    (aged_plain agedLog),
    hrooted, load_of_aged hroot hstore hlog 1, (congrArg pointsIn hlog).trans hpoints, ?_, by simp,
    ?_, ?_, ?_⟩
  all_goals rw [List.forall_mem_singleton]
  · exact ⟨1, 0, hid⟩
  all_goals rw [show agedPoint.files = ["a"] from rfl, List.forall_mem_singleton]
  · exact ⟨by decide, by decide +kernel⟩
  · exact ⟨_, aged_read hroot hstore hdirectory hcopy⟩
  · exact fun d' hlinks place => aged_outside agedLog hlinks

/-- The new point is that of the call. -/
theorem oneFilePoint_eq : oneFilePoint = ⟨idOf 7 0, 7, oneFilePoint.files, "before"⟩ := by
  rw [show idOf 7 0 = "rp-7-0" by cbv, oneFilePoint]

/-- The old point goes. -/
theorem aged_evict (log : ByteArray) :
    oneFileStore.evict [agedPoint] (agedCopied log) =
      (agedCopied log).cut ["r", "s", "rp-1-0"] := by
  obtain ⟨hroot, hstore, -, -, hdirectory⟩ := agedCopied_lookup log
  have hlocate := aged_locate false hroot hstore hdirectory
  have hdots : endsInDots (oneFileStore.pointDirectory agedPoint.id) = false :=
    endsInDots_join _ ⟨by decide, by decide, by decide, by decide⟩
  simp only [evict, List.foldl, dropped, Change.after, removeTree, hlocate, hdirectory, hdots]
  rfl

/-- The new point is made. -/
theorem aged_create :
    ∃ d, oneFileStore.create 7 0 ["a"] "before" (aged agedLog) = ⟨.ok oneFilePoint, 1, d⟩ := by
  obtain ⟨hroot, hfile, hstore, -, -, -, hnew⟩ := aged_lookup agedLog
  have hnames : oneFileStore.namesOf (aged agedLog) ["a"] = .ok ["a"] := by
    generalize agedLog = log
    cbv
  have hcopied := oneFileStore_backUp hroot hfile hstore hnew
  obtain ⟨hroot, hstore, hlog, hdraft, -⟩ := agedCopied_lookup agedLog
  have hlisted : oneFileStore.load (agedCopied agedLog) = [agedPoint] :=
    load_of_aged hroot hstore hlog 1
  have hcut (p : Place) : ((agedCopied agedLog).cut ["r", "s", "rp-1-0"]).lookup p =
      if ["r", "s", "rp-1-0"] <+: p then none else (agedCopied agedLog).lookup p :=
        lookup_cut (by simp) p
  have hevict := aged_evict agedLog
  generalize (agedCopied agedLog).cut ["r", "s", "rp-1-0"] = d at hcut hevict
  have hroot' : d.lookup ["r"] = some .directory := by rw [hcut, if_neg (by decide), hroot]
  have hstore' : d.lookup ["r", "s"] = some .directory := by rw [hcut, if_neg (by decide), hstore]
  have hroom : d.Room oneFileStore.directory ["r", "s"] logName := by
    refine ⟨oneFileStore_locate hroot' hstore', hstore', isName_logName, isName_draft, ?_, ?_⟩
    · rw [hcut, if_neg (by decide), List.cons_append, List.cons_append, List.nil_append, hlog]
      trivial
    · rw [hcut, if_neg (by decide +kernel), List.cons_append, List.cons_append, List.nil_append,
        hdraft]
      trivial
  obtain ⟨d', hsave, -, -⟩ := save_of_room hroom (RestorePoint.logText [oneFilePoint])
  refine ⟨d',
    create_eq_ok_iff.mpr ⟨rfl, agedCopied agedLog, ⟨hnames, oneFilePoint_eq, hcopied⟩, ?_⟩⟩
  rw [staying, evicted, hlisted]
  exact reporting_eq_ok.mpr ((congrArg _ hevict).trans hsave)

/-- **The oldest point goes with its directory** when a store that keeps one point makes another. -/
theorem retention_evicts : ∃ made d, oneFileStore.Run ["r", "s"] [agedPoint] (aged agedLog) made d ∧
    oneFileStore.list d = [oneFilePoint] ∧
    d.isDirectory (oneFileStore.pointDirectory agedPoint.id) = false := by
  obtain ⟨d, hcreate⟩ := aged_create
  have hid : ∀ p ∈ [agedPoint], p.id ≠ idOf 7 ([] : List Made).length := by
    rw [List.forall_mem_singleton, List.length_nil, show idOf 7 0 = "rp-7-0" by cbv]
    decide
  have hrun :
      oneFileStore.Run ["r", "s"] [agedPoint] (aged agedLog) [⟨oneFilePoint, ["a"], aged agedLog⟩]
        d := by
    refine .created .start (by decide) hid (fun name hname place hplace => ?_) hcreate
    rw [List.mem_singleton.mp hname] at hplace
    exact aged_outside agedLog (.refl _) hplace
  obtain ⟨hlist, -, -, -, -, hgone⟩ := retention aged_opened hrun
  refine ⟨_, d, hrun, hlist,
    hgone agedPoint (List.mem_append_left _ (List.mem_singleton.mpr rfl)) ?_⟩
  rw [hlist]
  decide +kernel

/-! ## A link in the store

The draft of the log is a link to the log. Writing the log writes through the link, and then the
link takes the place of the log: it leads to itself, and no point is listed any more. -/

/-- A link to itself leads nowhere. -/
theorem not_leads_of_link {d : Disk} {links : Nat} {here place : Place} (hname : IsName name)
    (hlink : d.lookup (here ++ [name]) = some (.link name)) :
    ¬Leads d true links here [name] place := by
  have hplain : splitOn '/' name ++ [] = [name] := by
    rw [List.append_nil, splitOn, splitOnChar, piecesAt_of_notMem hname.slash]
    simp
  induction links with
  | zero =>
    intro h
    cases h with
    | idle _ idle => exact absurd idle (not_or.mpr ⟨hname.ne_empty, hname.ne_dot⟩)
    | up => exact hname.ne_dots rfl
    | stay _ _ _ _ last => cases last
    | enter _ _ _ link => exact link name hlink
  | succ links ih =>
    intro h
    cases h with
    | idle _ idle => exact absurd idle (not_or.mpr ⟨hname.ne_empty, hname.ne_dot⟩)
    | up => exact hname.ne_dots rfl
    | stay _ _ _ _ last => cases last
    | jump _ _ _ link _ go =>
      rw [hlink] at link
      cases link
      rw [hplain, if_neg (by rw [hname.isAbsolute_eq]; simp)] at go
      exact ih go
    | enter _ _ _ link => exact link name hlink

/-- **A text that is saved through a link to its file**: the draft is the link, so the text goes to
the file, and then the link is moved over it. -/
theorem save_over_link {d : Disk} {directory name : String} {home : Place}
    (hfound : d.locate true directory = .ok home) (hdirectory : d.lookup home = some .directory)
    (hname : IsName name) (hdraft : IsName (name ++ ".tmp"))
    (hlink : d.lookup (home ++ [name ++ ".tmp"]) = some (.link name))
    (hdead : Dead (d.lookup (home ++ [name])))
    (hthrough : d.locate true (join directory (name ++ ".tmp")) = .ok (home ++ [name]))
    (text : String) :
    Disk.save directory name text d = .ok ()
      (((d.put (home ++ [name]) (.file text.toUTF8)).cut (home ++ [name ++ ".tmp"])).put
        (home ++ [name]) (.link name)) := by
  have hmake := makeDirectories_of_directory hfound hdirectory
  have hwrite : write (join directory (name ++ ".tmp")) text.toUTF8 d =
      .ok () (d.put (home ++ [name]) (.file text.toUTF8)) := by
    obtain ⟨hslashes, hend⟩ := withoutEndSlashes_join directory hdraft
    rw [write, writable, hslashes, hthrough]
    simp only [hend, Bool.false_eq_true, if_false]
    split
    · next hwritable =>
      split at hwritable <;> cases hwritable
      exact absurd ‹_› hdead.ne_directory
    · next hwritable =>
      split at hwritable <;> cases hwritable
      rfl
  have hways := sameWays_put hdead.ne_nil hdead text.toUTF8
  have hput := lookup_put (d := d) hdead.ne_nil (.file text.toUTF8)
  generalize d.put (home ++ [name]) (.file text.toUTF8) = e at hwrite hways hput
  have hfound' := hways.locate_iff.mp hfound
  have hdirectory' := hways.directory hdirectory
  have hne := ne_draft home name
  have hfile : e.lookup (home ++ [name]) = some (.file text.toUTF8) := by rw [hput, if_pos rfl]
  have hlink' : e.lookup (home ++ [name ++ ".tmp"]) = some (.link name) := by
    rw [hput, if_neg hne.symm, hlink]
  have hsource := locate_join_link hfound' hdirectory' hdraft hlink'
  have htarget := locate_join false hfound' hdirectory' hname (by rw [hfile]; simp)
  have hrename := rename_eq hsource hlink' htarget (by rw [hfile]; simp) hne
  exact bind_eq_ok.mpr
    ⟨(), _, reporting_eq_ok.mpr hmake, bind_eq_ok.mpr ⟨(), _, reporting_eq_ok.mpr hwrite,
    reporting_eq_ok.mpr hrename⟩⟩

/-- A log that is a link to itself lists no points. -/
theorem load_of_link (haims : d.Aims s.directory vault)
    (hlink : d.lookup (vault ++ [logName]) = some (.link logName)) : s.load d = [] := by
  cases hlocate : d.locate true s.logPath with
  | error e => exact load_of_locate_error hlocate
  | ok place =>
    exfalso
    rw [logPath, locate_iff_leads] at hlocate
    rcases splitOn_join s.directory isName_logName.slash with hjoin | ⟨parts, hdirectory, hjoin⟩
    all_goals
      rw [hjoin] at hlocate
      obtain ⟨links, home, hhome, hlast⟩ := hlocate.split (List.cons_ne_nil _ _)
    · obtain rfl := haims d (.refl d) home (locate_iff_leads.mpr hhome)
      exact not_leads_of_link isName_logName hlink hlast
    · obtain rfl := haims d (.refl d) home (locate_iff_leads.mpr (by
        rw [hdirectory]
        exact hhome.withEmpty (hlast.name_inv isName_logName).1))
      exact not_leads_of_link isName_logName hlink hlast

/-- The store, if it keeps five points. -/
def wideStore : RestoreStore :=
  { oneFileStore with maxPoints := 5 }

/-- The disk with the link. -/
def linked (log : ByteArray) : Disk :=
  (aged log).put ["r", "s", logName ++ ".tmp"] (.link logName)

/-- The disk when the file has been copied. -/
def linkedCopied (log : ByteArray) : Disk :=
  ((linked log).put ["r", "s", "rp-7-0"] .directory).put ["r", "s", "rp-7-0", "a"]
    (.file "old".toUTF8)

/-- The disk when the log has been written. -/
def linkedSaved (log text : ByteArray) : Disk :=
  (((linkedCopied log).put ["r", "s", logName] (.file text)).cut ["r", "s", logName ++ ".tmp"]).put
    ["r", "s", logName] (.link logName)

/-- What stands on the disk with the link. -/
theorem linked_lookup (log : ByteArray) : (linked log).lookup ["r"] = some .directory ∧
    (linked log).lookup ["r", "a"] = some (.file "old".toUTF8) ∧
    (linked log).lookup ["r", "s"] = some .directory ∧
    (linked log).lookup ["r", "s", logName] = some (.file log) ∧
    (linked log).lookup ["r", "s", "rp-1-0"] = some .directory ∧
    (linked log).lookup ["r", "s", "rp-1-0", "a"] = some (.file "older".toUTF8) ∧
    ∀ more, (linked log).lookup (["r", "s"] ++ "rp-7-0" :: more) = none := by
  refine ⟨?_, ?_, ?_, ?_, ?_, ?_, fun more => ?_⟩ <;>
    simp [linked, aged, oneFile, lookup_put, lookup_empty, logName]

/-- Copying the file leaves the rest. -/
theorem linkedCopied_lookup (log : ByteArray) : (linkedCopied log).lookup ["r"] = some .directory ∧
    (linkedCopied log).lookup ["r", "s"] = some .directory ∧
    (linkedCopied log).lookup ["r", "s", logName] = some (.file log) ∧
    (linkedCopied log).lookup ["r", "s", logName ++ ".tmp"] = some (.link logName) := by
  refine ⟨?_, ?_, ?_, ?_⟩ <;> simp [linkedCopied, linked, aged, oneFile, lookup_put, logName]

/-- Writing the log leaves the link in its place. -/
theorem linkedSaved_lookup (log text : ByteArray) :
    (linkedSaved log text).lookup ["r"] = some .directory ∧
    (linkedSaved log text).lookup ["r", "s"] = some .directory ∧
    (linkedSaved log text).lookup ["r", "s", "rp-1-0"] = some .directory ∧
    (linkedSaved log text).lookup ["r", "s", logName] = some (.link logName) := by
  refine ⟨?_, ?_, ?_, ?_⟩ <;>
    simp [linkedSaved, linkedCopied, linked, aged, oneFile, lookup_put, lookup_cut, logName]

/-- The path of the draft leads to the log. -/
theorem linkedCopied_locate (log : ByteArray) :
    (linkedCopied log).locate true (join wideStore.directory (logName ++ ".tmp")) =
      .ok ["r", "s", logName] := by
  obtain ⟨hroot, hstore, hfile, hlink⟩ := linkedCopied_lookup log
  have hpath : join wideStore.directory (logName ++ ".tmp") = "/r/s/restore-points.json.tmp" := by
    simp [wideStore, oneFileStore, join, isAbsolute, logName]
  have hparts : splitOn '/' "/r/s/restore-points.json.tmp" = ["", "r", "s", logName ++ ".tmp"] := by
    decide +kernel
  have htarget : splitOn '/' logName ++ [] = [logName] := by decide +kernel
  rw [hpath, locate_iff_leads, hparts]
  refine .idle rfl (.inl rfl) (.enter rfl (by decide) (by decide) (by simp [hroot])
    (.enter hroot (by decide) (by decide) (by simp [hstore])
      (.jump hstore (by decide) (by decide) hlink (.inl rfl) ?_)))
  rw [htarget, if_neg (by decide)]
  exact .enter hstore (by decide) (by decide) (by simp [hfile]) .arrive

/-- The log is written through the link. -/
theorem linked_save (log : ByteArray) (points : List RestorePoint) :
    wideStore.save points (linkedCopied log) =
    .ok () (linkedSaved log (RestorePoint.logText points).toUTF8) := by
  obtain ⟨hroot, hstore, hfile, hlink⟩ := linkedCopied_lookup log
  have hfound : (linkedCopied log).locate true wideStore.directory = .ok ["r", "s"] :=
    oneFileStore_locate hroot hstore
  have hsave := save_over_link hfound hstore isName_logName isName_draft hlink
    (show Dead ((linkedCopied log).lookup ["r", "s", logName]) by rw [hfile]; trivial)
    (linkedCopied_locate log) (RestorePoint.logText points)
  exact reporting_eq_ok.mpr hsave

/-- **A link in the store loses its points**: none is listed after the call, though the store keeps
five points, two were logged, and the directory of the first is still there. -/
theorem retention_fails_at_link : ∃ d d', wideStore.load d = [agedPoint] ∧ agedPoint.id = idOf 1 0 ∧
    idOf 7 0 ≠ agedPoint.id ∧
    (∀ name ∈ agedPoint.files, d.read (join (wideStore.pointDirectory agedPoint.id) name) =
      .ok "older".toUTF8) ∧ d.locate true wideStore.directory = .ok ["r", "s"] ∧
    d.locate true (wideStore.root.absolute "a") = .ok ["r", "a"] ∧
    wideStore.create 7 0 ["a"] "before" d = ⟨.ok oneFilePoint, 1, d'⟩ ∧
    wideStore.list d' = [] ∧ d'.isDirectory (wideStore.pointDirectory agedPoint.id) = true := by
  obtain ⟨hroot, hfile, hstore, hlog, hdirectory, hcopy, hnew⟩ := linked_lookup agedLog
  have hnames : wideStore.namesOf (linked agedLog) ["a"] = .ok ["a"] := by
    generalize agedLog = log
    cbv
  have hcopied := oneFileStore_backUp hroot hfile hstore hnew
  obtain ⟨hroot', hstore', hlog', -⟩ := linkedCopied_lookup agedLog
  have hlisted : wideStore.load (linkedCopied agedLog) = [agedPoint] :=
    load_of_aged hroot' hstore' hlog' 5
  have hsaved : wideStore.save (wideStore.staying (linkedCopied agedLog) oneFilePoint)
      (wideStore.evict (wideStore.evicted (linkedCopied agedLog) oneFilePoint)
        (linkedCopied agedLog)) =
      .ok () (linkedSaved agedLog (RestorePoint.logText [agedPoint, oneFilePoint]).toUTF8) := by
    rw [staying, evicted, hlisted]
    exact linked_save agedLog [agedPoint, oneFilePoint]
  obtain ⟨hroot'', hstore'', hdirectory'', hlink⟩ :=
    linkedSaved_lookup agedLog (RestorePoint.logText [agedPoint, oneFilePoint]).toUTF8
  refine ⟨linked agedLog, linkedSaved agedLog _, load_of_aged hroot hstore hlog 5, by cbv, ?_, ?_,
    oneFileStore_locate hroot hstore, oneFileStore_locate_file hroot hfile,
    create_eq_ok_iff.mpr ⟨rfl, _, ⟨hnames, oneFilePoint_eq, hcopied⟩, hsaved⟩, ?_, ?_⟩
  · rw [show idOf 7 0 = "rp-7-0" by cbv]
    decide
  · rw [show agedPoint.files = ["a"] from rfl, List.forall_mem_singleton]
    exact aged_read hroot hstore hdirectory hcopy
  · have hlost :=
      load_of_link (s := wideStore) (aims_of_locate (oneFileStore_locate hroot'' hstore'')) hlink
    rw [list, hlost, List.reverse_nil]
  · have hfind :=
      find_eq_ok_iff.mpr ⟨_, aged_locate true hroot'' hstore'' hdirectory'', hdirectory''⟩
    rw [Disk.isDirectory, show wideStore.pointDirectory agedPoint.id =
      oneFileStore.pointDirectory agedPoint.id from rfl, hfind]

end RestoreStore

end CodeAtlas
