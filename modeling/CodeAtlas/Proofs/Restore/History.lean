import CodeAtlas.Proofs.Restore.Copies
import CodeAtlas.Proofs.Restore.Eviction
import CodeAtlas.Proofs.Restore.Log
import CodeAtlas.Proofs.Restore.Names

/-!
# What a store keeps through its history

Setup: a store starts with nothing in its directory, and then points are made and restored while
others change the files around it (`RestoreStore.History`). The disk may be any; what is asked of it
is that the files of a point do not lie in the directory of the store, and that others leave this
directory and the links alone.

`RestoreStore.Holds` is the invariant: no id was given twice, the log holds the youngest of the
points that were made, and the copies of a logged point hold what its files held when it was made.
**`RestoreStore.History.holds`** follows the history. A step that leaves the directory of the store
alone is no work (`RestoreStore.Holds.of_kept`); making a point is copying, evicting and logging,
one after the other (`RestoreStore.Holds.created`).
-/

namespace CodeAtlas

open CodeAtlas.Disk CodeAtlas.Path CodeAtlas.Text

namespace RestoreStore

/-- A point that was made, of which paths, and on which disk. -/
structure Made where
  /-- the point -/
  point : RestorePoint
  /-- the paths it was made of -/
  paths : List String
  /-- the disk from which its files were copied -/
  disk : Disk

/-- A list of the points that were made, the oldest first, and the disk on which the calls and the
changes by others end. Listing the points changes nothing, so it is no step. -/
inductive History (s : RestoreStore) (vault : Place) : List Made → Disk → Prop where
  /-- the path of the store leads to the place `vault`, if anywhere, and nothing lies there -/
  | start {d : Disk} (aims : d.Aims s.directory vault)
      (empty : ∀ more, more ≠ [] → d.lookup (vault ++ more) = none) : History s vault [] d
  /-- a point is made of files that do not lie in the store -/
  | created {made : List Made} {d d' : Disk} {now : Nat} {paths : List String} {message : String}
      {point : RestorePoint} (before : History s vault made d) (time : now < UInt64.size)
      (outside : ∀ name ∈ point.files, ∀ place,
        d.locate true (s.root.absolute name) = .ok place → ¬vault <+: place)
      (success : s.create now made.length paths message d = ⟨.ok point, made.length + 1, d'⟩) :
      History s vault (made ++ [⟨point, paths, d⟩]) d'
  /-- a point is restored -/
  | restored {made : List Made} {d d' : Disk} {id : String} {point : RestorePoint}
      (before : History s vault made d) (success : s.restore id d = .ok point d') :
      History s vault made d'
  /-- others change anything but links and what lies in the store -/
  | edited {made : List Made} {d d' : Disk} (before : History s vault made d)
      (links : d.SameLinks d')
      (inside : ∀ more, more ≠ [] → d'.lookup (vault ++ more) = d.lookup (vault ++ more)) :
      History s vault made d'

variable {s : RestoreStore} {vault : Place} {made logged : List Made} {d d' : Disk} {m : Made}
  {id name : String}

/-- Where a file of a point was when the point was made. -/
def Made.origin (m : Made) (s : RestoreStore) (name : String) : Place :=
  match m.disk.locate true (s.root.absolute name) with
  | .ok place => place
  | .error _ => []

/-- Where the copy of a file of a point lies. -/
def copyPlace (vault : Place) (id name : String) : Place :=
  vault ++ id :: splitOn '/' name

/-- The path of the store leads to the place `vault`, if anywhere, and no links lie there. -/
structure Seated (s : RestoreStore) (vault : Place) (d : Disk) : Prop where
  /-- the path leads nowhere else -/
  aims : d.Aims s.directory vault
  /-- no links lie in the store -/
  plain : ∀ more, more ≠ [] → ∀ target, d.lookup (vault ++ more) ≠ some (.link target)

theorem Seated.sameLinks (h : s.Seated vault d) (hlinks : d.SameLinks d') : s.Seated vault d' :=
  ⟨h.aims.sameLinks hlinks, fun more hmore => hlinks.ne_link (h.plain more hmore)⟩

/-- What is known of a point that was made. -/
structure Made.Fits (m : Made) (s : RestoreStore) (vault : Place) : Prop where
  /-- its time has 64 bits -/
  time : m.point.timestamp < UInt64.size
  /-- no file is named twice -/
  nodup : m.point.files.Nodup
  /-- the files are those of the paths -/
  files : ∀ name, name ∈ m.point.files ↔ ∃ path ∈ m.paths, s.root.relative path = .ok name
  /-- each file has a name -/
  named : ∀ name ∈ m.point.files, Named name
  /-- each file was there -/
  found : ∀ name ∈ m.point.files,
    m.disk.locate true (s.root.absolute name) = .ok (m.origin s name) ∧
      ∃ bytes, m.disk.lookup (m.origin s name) = some (.file bytes)
  /-- and did not lie in the store -/
  outside : ∀ name ∈ m.point.files, ¬vault <+: m.origin s name

/-- The log holds these points, and their copies hold what was copied. -/
structure Logged (s : RestoreStore) (vault : Place) (logged : List Made) (d : Disk) : Prop where
  /-- the log is the text of the points; before the first one there may be none -/
  log : d.lookup (vault ++ [logName]) =
      some (.file (RestorePoint.logText (logged.map Made.point)).toUTF8) ∨
    logged = [] ∧ ∀ bytes, d.lookup (vault ++ [logName]) ≠ some (.file bytes)
  /-- the copies hold what the files held -/
  copies : ∀ m ∈ logged, ∀ name ∈ m.point.files,
    d.lookup (copyPlace vault m.point.id name) = m.disk.lookup (m.origin s name)

/-- What holds after any history. -/
structure Holds (s : RestoreStore) (vault : Place) (made : List Made) (d : Disk) : Prop where
  /-- the store is at its place -/
  seated : s.Seated vault d
  /-- no id was given twice -/
  nodup : (made.map fun m => m.point.id).Nodup
  /-- the ids are numbered -/
  numbered : ∀ m ∈ made, ∃ now number, number < made.length ∧ m.point.id = idOf now number
  /-- the points are in order -/
  fits : ∀ m ∈ made, m.Fits s vault
  /-- the links are those that the points were made with -/
  links : ∀ m ∈ made, m.disk.SameLinks d
  /-- the youngest points are logged -/
  logged : ∃ logged, logged <:+ made ∧ s.Logged vault logged d

/-! ## Reading the log -/

/-- A log that holds something is read. -/
theorem read_of_load (h : s.load d ≠ []) : ∃ bytes, d.read s.logPath = .ok bytes := by
  rw [load] at h
  cases hread : d.read s.logPath with
  | error e => simp [hread] at h
  | ok bytes => exact ⟨bytes, rfl⟩

/-- A log that holds something is found. -/
theorem found_of_load (haims : d.Aims s.directory vault) (h : s.load d ≠ []) :
    d.locate true s.directory = .ok vault ∧ d.lookup vault = some .directory := by
  obtain ⟨bytes, hread⟩ := read_of_load h
  obtain ⟨place, hlocate, -⟩ := read_eq_ok_iff.mp hread
  obtain ⟨home, hhome, hdirectory, -⟩ := locate_join_inv hlocate isName_logName
  obtain rfl := haims d (.refl d) home hhome
  exact ⟨hhome, hdirectory⟩

/-- **The log is read back** where the store is found. -/
theorem Logged.load_eq (h : s.Logged vault logged d)
    (htimes : ∀ m ∈ logged, m.point.timestamp < UInt64.size) (hseated : s.Seated vault d)
    (hfound : d.locate true s.directory = .ok vault)
    (hdirectory : d.lookup vault = some .directory) :
    s.load d = logged.map Made.point := by
  have hlocate : d.locate true s.logPath = .ok (vault ++ [logName]) :=
    locate_join true hfound hdirectory isName_logName
      (hseated.plain [logName] (List.cons_ne_nil _ _))
  rcases h.log with hlog | ⟨rfl, hlog⟩
  · refine load_of_text hlocate hlog fun p hp => ?_
    obtain ⟨m, hm, rfl⟩ := List.mem_map.mp hp
    exact htimes m hm
  · rw [load_eq_pointsIn hlocate]
    unfold pointsIn
    split
    · next bytes hfile => exact absurd hfile (hlog bytes)
    · rfl

/-! ## Where copies lie -/

/-- A tree in the store holds the copies of one point only. -/
theorem prefix_copyPlace_iff {id' : String} :
    vault ++ [id'] <+: copyPlace vault id name ↔ id' = id := by
  rw [copyPlace, List.prefix_append_right_inj, List.cons_prefix_cons, and_iff_left List.nil_prefix]

/-- Copies of different files of a point lie at different places. -/
theorem copyPlace_inj {name' : String} (h : Named name) (h' : Named name')
    (heq : copyPlace vault id name = copyPlace vault id name') : name = name' := by
  rw [copyPlace, copyPlace, List.append_cancel_left_eq, List.cons.injEq] at heq
  rw [← h.joined, heq.2, h'.joined]

/-- The log is no copy. -/
theorem copyPlace_ne (vault : Place) (id name last : String) :
    copyPlace vault id name ≠ vault ++ [last] := by
  intro heq
  rw [copyPlace, List.append_cancel_left_eq, List.cons.injEq] at heq
  exact splitOn_ne_nil name heq.2

/-- The path of a copy ends in names behind the path of the store. -/
theorem Named.copyPath_eq (h : Named name) (s : RestoreStore) (id : String) :
    join (s.pointDirectory id) name = pathBelow s.directory (id :: splitOn '/' name) :=
  h.join_eq _

/-- The components of a copy's path in the store. -/
theorem Named.copyParts (h : Named name) (hid : IsName id) :
    ∀ part ∈ id :: splitOn '/' name, IsName part :=
  List.forall_mem_cons.mpr ⟨hid, h.parts⟩

/-- The path of a copy leads to its place, if anywhere. -/
theorem aims_copy (h : s.Seated vault d) (hid : IsName id) (hname : Named name) :
    d.Aims (join (s.pointDirectory id) name) (copyPlace vault id name) := by
  rw [hname.copyPath_eq]
  exact h.aims.pathBelow (List.cons_ne_nil _ _) (hname.copyParts hid) fun front hfront _ =>
    h.plain front hfront

/-- A copy is found in the store. -/
theorem found_of_copy (h : s.Seated vault d) (hid : IsName id) (hname : Named name) {place : Place}
    (hlocate : d.locate true (join (s.pointDirectory id) name) = .ok place) :
    d.locate true s.directory = .ok vault ∧ d.lookup vault = some .directory := by
  rw [hname.copyPath_eq] at hlocate
  obtain ⟨home, hhome, hdirectory, -⟩ := locate_pathBelow_inv (List.cons_ne_nil _ _)
    (hname.copyParts hid) hlocate fun home hhome front hfront _ => by
      rw [h.aims d (.refl d) home hhome]
      exact h.plain front hfront
  obtain rfl := h.aims d (.refl d) home hhome
  exact ⟨hhome, hdirectory⟩

/-! ## Steps beside the store -/

/-- **A change that leaves the log and the copies alone**, but for new directories, keeps
everything. -/
theorem Holds.of_kept (h : s.Holds vault made d) (hlinks : d.SameLinks d')
    (hlog : d.Kept d' (vault ++ [logName]))
    (hcopies : ∀ m ∈ made, ∀ name, d.Kept d' (copyPlace vault m.point.id name)) :
    s.Holds vault made d' := by
  obtain ⟨logged, hsuffix, hlogged⟩ := h.logged
  refine ⟨h.seated.sameLinks hlinks, h.nodup, h.numbered, h.fits,
    fun m hm => (h.links m hm).trans hlinks, logged, hsuffix, ?_, ?_⟩
  · exact hlogged.log.imp hlog.lookup_of_some fun ⟨hnil, hnone⟩ =>
      ⟨hnil, fun bytes hfile => hnone bytes (hlog.lookup_of_file hfile)⟩
  · intro m hm name hname
    have hcopy := hlogged.copies m hm name hname
    obtain ⟨-, bytes, hbytes⟩ := (h.fits m (hsuffix.mem hm)).found name hname
    rw [hbytes] at hcopy ⊢
    exact (hcopies m (hsuffix.mem hm) name).lookup_of_some hcopy

/-! ## Making a point -/

/-- Making a point succeeds when its files are copied and it is logged. -/
theorem create_eq_ok_iff {now number number' : Nat} {paths : List String} {message : String}
    {point : RestorePoint} : s.create now number paths message d = ⟨.ok point, number', d'⟩ ↔
      number' = number + 1 ∧ ∃ e, s.Logs now number paths message d point e ∧
        s.save (s.staying e point) (s.evict (s.evicted e point) e) = .ok () d' := by
  constructor
  · intro h
    rw [create] at h
    split at h
    · cases h
    · next names hnames =>
      split at h
      · next made d₁ hrecord =>
        cases h
        rw [record] at hrecord
        obtain ⟨_, e, hbackUp, hrest⟩ := bind_eq_ok.mp hrecord
        obtain ⟨_, _, hlog, hpure⟩ := bind_eq_ok.mp hrest
        rw [log_eq] at hlog
        cases hpure
        exact ⟨rfl, e, ⟨hnames, rfl, hbackUp⟩, hlog⟩
      · cases h
  · rintro ⟨rfl, e, ⟨hnames, hpoint, hbackUp⟩, hsave⟩
    have hrecord : s.record (idOf now number) now point.files message d = .ok point d' := by
      rw [hpoint] at hbackUp hsave
      rw [record]
      refine bind_eq_ok.mpr ⟨(), e, hbackUp, bind_eq_ok.mpr ⟨(), d', ?_, ?_⟩⟩
      · rw [log_eq]
        exact hsave
      · rw [← hpoint]
        rfl
    rw [create]
    simp only [hnames, hrecord]

/-- Where the files of a new point come from and where their copies go. -/
theorem routes_backUp {names : List String} {origin : String → Place} (h : s.Seated vault d)
    (hid : IsName id) (hnamed : ∀ name ∈ names, Named name)
    (hfound : ∀ name ∈ names, d.locate true (s.root.absolute name) = .ok (origin name))
    (houtside : ∀ name ∈ names, ¬vault <+: origin name) :
    Routes d names s.root.absolute (fun name => join (s.pointDirectory id) name) origin
      (copyPlace vault id) where
  comes name hname := aims_of_locate (hfound name hname)
  goes name hname := aims_copy h hid (hnamed name hname)
  spelled name hname := by
    rw [(hnamed name hname).copyPath_eq]
    exact withoutEndSlashes_pathBelow _ (List.cons_ne_nil _ _) ((hnamed name hname).copyParts hid)
  apart a _ b hb heq := houtside b hb (heq ▸ List.prefix_append vault _)
  agree a ha b hb heq bytes hbytes := by
    rw [← copyPlace_inj (hnamed a ha) (hnamed b hb) heq]
    exact hbytes

/-- Evictions of points with proper ids change no link and no copy of another point. -/
theorem evict_keeps {points : List RestorePoint} (h : s.Seated vault d)
    (hids : ∀ point ∈ points, IsName point.id) :
    d.SameLinks (s.evict points d) ∧ ∀ id name, (∀ point ∈ points, point.id ≠ id) →
      (s.evict points d).lookup (copyPlace vault id name) = d.lookup (copyPlace vault id name) := by
  refine ⟨fun place target => ?_, fun id name hid => lookup_evict_of_not_taken fun htaken => ?_⟩
  · by_cases htaken : s.Taken place points d
    · obtain ⟨point, -, more, rfl⟩ := prefix_of_taken hids h.aims htaken
      have hnone := lookup_evict_of_taken htaken
      rw [hnone, List.append_assoc]
      exact iff_of_false (h.plain _ (List.cons_ne_nil _ _) target) nofun
    · rw [lookup_evict_of_not_taken htaken]
  · obtain ⟨point, hpoint, hprefix⟩ := prefix_of_taken hids h.aims htaken
    exact hid point hpoint (prefix_copyPlace_iff.mp hprefix)

/-- Writing the log changes no link, and no copy of a point that is called otherwise. -/
theorem save_keeps {points : List RestorePoint} (h : s.Seated vault d)
    (hsave : s.save points d = .ok () d') :
    d'.lookup (vault ++ [logName]) = some (.file (RestorePoint.logText points).toUTF8) ∧
      d.SameLinks d' ∧ ∀ id name, id ≠ logName ++ ".tmp" → d.Kept d' (copyPlace vault id name) := by
  obtain ⟨e, hmake, hroom, hsave⟩ := room_of_save (reporting_eq_ok.mp hsave) h.aims isName_logName
    isName_draft fun last => h.plain [last] (List.cons_ne_nil _ _)
  have hgrows := grows_makeDirectories hmake
  obtain ⟨d₁, hsave', -, hlookup⟩ := save_of_room hroom (RestorePoint.logText points)
  rw [hsave] at hsave'
  cases hsave'
  refine ⟨by rw [hlookup, if_pos rfl], hgrows.sameLinks.trans fun place target => ?_,
    fun id name hid => ?_⟩
  · -- where the file and the draft are put there was no link
    have hnone {more : Place} (hmore : more ≠ []) :
        e.lookup (vault ++ more) ≠ some (.link target) :=
      hgrows.sameLinks.ne_link (h.plain more hmore) target
    rw [hlookup]
    split_ifs with hlog hdraft
    · rw [hlog]
      exact iff_of_false (hnone (List.cons_ne_nil _ _)) nofun
    · obtain ⟨more, rfl⟩ := hdraft
      rw [List.append_assoc]
      exact iff_of_false (hnone (List.cons_ne_nil _ _)) nofun
    · rfl
  · have hkept : d'.lookup (copyPlace vault id name) = e.lookup (copyPlace vault id name) := by
      rw [hlookup, if_neg (copyPlace_ne vault id name logName), if_neg]
      exact fun hprefix => hid (prefix_copyPlace_iff.mp hprefix).symm
    rw [Kept, hkept]
    exact hgrows _

/-- **Evicting the oldest points and logging the others.** The log holds the others, and their
copies are what they were. -/
theorem Seated.kept_drop {points : List RestorePoint} (h : s.Seated vault d)
    (hids : ∀ p ∈ points, IsName p.id) (hdraft : ∀ p ∈ points, p.id ≠ logName ++ ".tmp")
    (hnodup : (points.map RestorePoint.id).Nodup) (count : Nat)
    (hsave : s.save (points.drop count) (s.evict (points.take count) d) = .ok () d') :
    d'.lookup (vault ++ [logName]) =
      some (.file (RestorePoint.logText (points.drop count)).toUTF8) ∧
      d.SameLinks d' ∧ ∀ p ∈ points.drop count, ∀ name, d.Kept d' (copyPlace vault p.id name) := by
  obtain ⟨hlinks, hkept⟩ := evict_keeps h fun p hp => hids p (List.mem_of_mem_take hp)
  obtain ⟨hlog, hlinks', hkept'⟩ := save_keeps (h.sameLinks hlinks) hsave
  refine ⟨hlog, hlinks.trans hlinks', fun p hp name => ?_⟩
  -- a point that stays is not called like one that goes
  have hother : ∀ gone ∈ points.take count, gone.id ≠ p.id := by
    rw [← List.take_append_drop count points, List.map_append] at hnodup
    exact fun gone hgone =>
      (List.nodup_append.mp hnodup).2.2 _ (List.mem_map.mpr ⟨gone, hgone, rfl⟩) _
      (List.mem_map.mpr ⟨p, hp, rfl⟩)
  rw [Disk.Kept, ← hkept p.id name hother]
  exact hkept' p.id name (hdraft p (List.mem_of_mem_drop hp))

/-- The copies of the points that stay are still what their files held. -/
theorem Seated.logged_drop {all : List Made} (h : s.Seated vault d)
    (hids : ∀ m ∈ all, IsName m.point.id) (hdraft : ∀ m ∈ all, m.point.id ≠ logName ++ ".tmp")
    (hnodup : (all.map fun m => m.point.id).Nodup)
    (hcopies : ∀ m ∈ all, ∀ name ∈ m.point.files,
      ∃ bytes, d.lookup (copyPlace vault m.point.id name) = some (.file bytes) ∧
        m.disk.lookup (m.origin s name) = some (.file bytes))
    (count : Nat) (hsave : s.save ((all.drop count).map Made.point)
      (s.evict ((all.take count).map Made.point) d) = .ok () d') :
    d.SameLinks d' ∧ s.Logged vault (all.drop count) d' := by
  rw [List.map_drop, List.map_take] at hsave
  obtain ⟨hlog, hlinks, hkept⟩ := h.kept_drop (List.forall_mem_map.mpr hids)
    (List.forall_mem_map.mpr hdraft) (by simpa [Function.comp_def] using hnodup) count hsave
  rw [← List.map_drop] at hlog hkept
  refine ⟨hlinks, .inl hlog, fun m hm name hname => ?_⟩
  obtain ⟨bytes, hcopy, horigin⟩ := hcopies m (List.mem_of_mem_drop hm) name hname
  rw [horigin]
  exact (hkept m.point (List.mem_map.mpr ⟨m, hm, rfl⟩) name).lookup_of_some hcopy

/-- A point that is made fits. -/
theorem fits_of_names {paths : List String} {point : RestorePoint}
    (hnames : s.namesOf d paths = .ok point.files) (htime : point.timestamp < UInt64.size)
    (houtside : ∀ name ∈ point.files, ∀ place,
      d.locate true (s.root.absolute name) = .ok place → ¬vault <+: place) :
    (Made.mk point paths d).Fits s vault := by
  obtain ⟨-, hnodup, hfiles, hnamed⟩ := namesOf_spec hnames
  have hfound : ∀ name ∈ point.files,
      d.locate true (s.root.absolute name) = .ok ((Made.mk point paths d).origin s name) ∧
        ∃ bytes, d.lookup ((Made.mk point paths d).origin s name) = some (.file bytes) := by
    intro name hname
    obtain ⟨place, bytes, hlocate, hentry⟩ := isFile_iff.mp (hnamed name hname).1
    have horigin : (Made.mk point paths d).origin s name = place := by
      simp only [Made.origin, hlocate]
    exact ⟨by rw [horigin, hlocate], bytes, by rw [horigin, hentry]⟩
  exact ⟨htime, hnodup, hfiles, fun name hname => (hnamed name hname).2, hfound,
    fun name hname => houtside name hname _ (hfound name hname).1⟩

/-- A new id is one more number. -/
theorem Holds.ids_concat (h : s.Holds vault made d) {now : Nat}
    (hid : m.point.id = idOf now made.length) :
    (∀ m' ∈ made, m'.point.id ≠ m.point.id) ∧ ((made ++ [m]).map fun m => m.point.id).Nodup ∧
      ∀ m' ∈ made ++ [m], ∃ now number, number < (made ++ [m]).length ∧
        m'.point.id = idOf now number := by
  have hfresh : ∀ m' ∈ made, m'.point.id ≠ m.point.id := by
    intro m' hm' heq
    obtain ⟨now', number, hlt, hnumber⟩ := h.numbered m' hm'
    rw [hnumber, hid] at heq
    exact absurd (idOf_inj heq) (Nat.ne_of_lt hlt)
  refine ⟨hfresh, ?_, fun m' hm' => ?_⟩
  · rw [List.map_append, List.nodup_append]
    refine ⟨h.nodup, List.nodup_singleton _, fun id hmem id' hmem' => ?_⟩
    obtain ⟨m', hm', rfl⟩ := List.mem_map.mp hmem
    rw [List.mem_singleton.mp hmem']
    exact hfresh m' hm'
  · rw [List.length_append, List.length_singleton]
    rcases List.mem_append.mp hm' with hold | hnew
    · obtain ⟨now', number, hlt, hnumber⟩ := h.numbered m' hold
      exact ⟨now', number, by omega, hnumber⟩
    · rw [List.mem_singleton.mp hnew]
      exact ⟨now, made.length, by omega, hid⟩

/-- **Copying the files of a new point** keeps everything, and the copies hold what the files hold.
-/
theorem Holds.copied {now : Nat} {e : Disk} (h : s.Holds vault made m.disk) (hfits : m.Fits s vault)
    (hne : m.point.files ≠ []) (hid : m.point.id = idOf now made.length)
    (hbackUp : s.backUp m.point.id m.point.files m.disk = .ok () e) :
    s.Holds vault made e ∧ m.disk.SameLinks e ∧
      (e.locate true s.directory = .ok vault ∧ e.lookup vault = some .directory) ∧
      ∀ name ∈ m.point.files, ∃ bytes,
        e.lookup (copyPlace vault m.point.id name) = some (.file bytes) ∧
          m.disk.lookup (m.origin s name) = some (.file bytes) := by
  have hname : IsName m.point.id := hid ▸ isName_idOf now made.length
  have hcopied :=
    (routes_backUp h.seated hname hfits.named (fun name hmem => (hfits.found name hmem).1)
    hfits.outside).copied hbackUp
  -- the log and the other copies are left alone
  have hbefore := h.of_kept hcopied.sameLinks
    (hcopied.kept _ fun name _ heq => copyPlace_ne vault _ name logName heq.symm)
    fun m' hm' name => hcopied.kept _ fun name' _ heq => (h.ids_concat hid).1 m' hm'
      (prefix_copyPlace_iff.mp (heq ▸ prefix_copyPlace_iff.mpr rfl))
  obtain ⟨name, hmem⟩ := List.exists_mem_of_ne_nil _ hne
  refine ⟨hbefore, hcopied.sameLinks,
    found_of_copy hbefore.seated hname (hfits.named name hmem) (hcopied.found name hmem),
    fun name hmem => ?_⟩
  obtain ⟨bytes, horigin, hcopy⟩ := hcopied.bytes name hmem
  exact ⟨bytes, hcopy, horigin⟩

/-- **Making a point keeps everything.** -/
theorem Holds.created {now : Nat} {paths : List String} {message : String} {point : RestorePoint}
    (h : s.Holds vault made d) (time : now < UInt64.size)
    (outside : ∀ name ∈ point.files, ∀ place,
      d.locate true (s.root.absolute name) = .ok place → ¬vault <+: place)
    (success : s.create now made.length paths message d = ⟨.ok point, made.length + 1, d'⟩) :
    s.Holds vault (made ++ [⟨point, paths, d⟩]) d' := by
  obtain ⟨-, e, ⟨hnames, hpoint, hbackUp⟩, hsave⟩ := create_eq_ok_iff.mp success
  have hid : point.id = idOf now made.length := by rw [hpoint]
  have htime : point.timestamp < UInt64.size := by rw [hpoint]; exact time
  have hfits := fits_of_names hnames htime outside
  generalize hm : Made.mk point paths d = m at hfits
  obtain ⟨rfl, rfl⟩ : m.point = point ∧ m.disk = d := by rw [← hm]; exact ⟨rfl, rfl⟩
  obtain ⟨-, hnodup, hnumbered⟩ := h.ids_concat hid
  obtain ⟨hbefore, hlinks, ⟨hfound, hdirectory⟩, hnew⟩ :=
    h.copied hfits (namesOf_spec hnames).1 hid hbackUp
  obtain ⟨logged, ⟨front, rfl⟩, hlogged⟩ := hbefore.logged
  have hall : logged ++ [m] <:+ front ++ logged ++ [m] := ⟨front, (List.append_assoc ..).symm⟩
  have hproper : ∀ m' ∈ logged ++ [m], IsName m'.point.id ∧ m'.point.id ≠ logName ++ ".tmp" := by
    intro m' hm'
    obtain ⟨now, number, -, hnumber⟩ := hnumbered m' (hall.mem hm')
    rw [hnumber]
    exact ⟨isName_idOf now number, (idOf_ne_logName now number).2⟩
  have hfitsAll : ∀ m' ∈ front ++ logged ++ [m], m'.Fits s vault :=
    List.forall_mem_append.mpr ⟨h.fits, by simpa using hfits⟩
  have hcopies : ∀ m' ∈ logged ++ [m], ∀ name ∈ m'.point.files,
      ∃ bytes, e.lookup (copyPlace vault m'.point.id name) = some (.file bytes) ∧
        m'.disk.lookup (m'.origin s name) = some (.file bytes) := by
    refine List.forall_mem_append.mpr ⟨fun m' hm' name hmem => ?_, by simpa using hnew⟩
    obtain ⟨-, bytes, hbytes⟩ := (h.fits m' (List.mem_append_right front hm')).found name hmem
    exact ⟨bytes, by rw [hlogged.copies m' hm' name hmem, hbytes], hbytes⟩
  -- evicting and logging
  have hload := hlogged.load_eq (fun m' hm' => (h.fits m' (List.mem_append_right front hm')).time)
    hbefore.seated hfound hdirectory
  rw [staying, evicted, hload, ← List.map_singleton, ← List.map_append, ← List.map_take,
    ← List.map_drop] at hsave
  obtain ⟨hlinks', hlogged'⟩ := hbefore.seated.logged_drop (fun m' hm' => (hproper m' hm').1)
    (fun m' hm' => (hproper m' hm').2) (hnodup.sublist (hall.sublist.map _)) hcopies _ hsave
  refine ⟨hbefore.seated.sameLinks hlinks', hnodup, hnumbered, hfitsAll, ?_, _,
    (List.drop_suffix _ _).trans hall, hlogged'⟩
  exact List.forall_mem_append.mpr ⟨fun m' hm' => (hbefore.links m' hm').trans hlinks',
    by simpa using hlinks.trans hlinks'⟩

/-! ## Restoring a point -/

/-- Restoring a point succeeds when it is found, its names are safe, and its copies are put back. -/
theorem restore_eq_ok_iff {point : RestorePoint} : s.restore id d = .ok point d' ↔
    s.find id d = .ok point ∧ s.check point = .ok () ∧ s.putBack point d = .ok () d' := by
  rw [restore]
  cases hfind : s.find id d with
  | error e => simp
  | ok found =>
    cases hcheck : s.check found with
    | error e =>
      simp only [hcheck, reduceCtorEq, Except.ok.injEq, false_iff, not_and]
      rintro rfl hchecked
      rw [hcheck] at hchecked
      cases hchecked
    | ok =>
      cases hput : s.putBack found d with
      | ok _ d₁ =>
        simp only [hcheck, hput, EStateM.Result.ok.injEq, Except.ok.injEq]
        constructor
        · rintro ⟨rfl, rfl⟩
          exact ⟨rfl, hcheck, hput⟩
        · rintro ⟨rfl, -, hput'⟩
          rw [hput] at hput'
          cases hput'
          exact ⟨rfl, rfl⟩
      | error e d₁ =>
        simp only [hcheck, hput, reduceCtorEq, Except.ok.injEq, false_iff, not_and]
        rintro rfl - hput'
        rw [hput] at hput'
        cases hput'

/-- A point that is found is in the log under its id. -/
theorem mem_of_find {point : RestorePoint} (h : s.find id d = .ok point) :
    point ∈ s.load d ∧ point.id = id := by
  rw [find] at h
  split at h
  · next hsome =>
    cases h
    exact ⟨List.mem_of_find?_eq_some hsome, by simpa using List.find?_some hsome⟩
  · cases h

/-- Where the copies of a point come from and where its files go. Two names with one file have one
content. -/
theorem Holds.routes_putBack (h : s.Holds vault made d) (hlogged : s.Logged vault logged d)
    (hsuffix : logged <:+ made) (hm : m ∈ logged) :
    Routes d m.point.files (fun name => join (s.pointDirectory m.point.id) name) s.root.absolute
      (copyPlace vault m.point.id) (m.origin s) := by
  have hmade := hsuffix.mem hm
  have hfits := h.fits m hmade
  obtain ⟨now, number, -, hid⟩ := h.numbered m hmade
  have hname : IsName m.point.id := hid ▸ isName_idOf now number
  exact {
    comes := fun name hmem => aims_copy h.seated hname (hfits.named name hmem)
    goes := fun name hmem => (aims_of_locate (hfits.found name hmem).1).sameLinks (h.links m hmade)
    spelled := fun name hmem => by
      rw [Root.absolute, (hfits.named name hmem).join_eq]
      exact withoutEndSlashes_pathBelow _ (splitOn_ne_nil name) (hfits.named name hmem).parts
    apart := fun a ha b _ heq => hfits.outside a ha (heq ▸ List.prefix_append vault _)
    agree := fun a ha b hb heq bytes hbytes => by
      rw [hlogged.copies m hm b hb, ← heq, ← hlogged.copies m hm a ha, hbytes] }

/-- **What restoring a point does**: the point is one that was made, and its copies go where its
files were. -/
theorem Holds.restored_spec {point : RestorePoint} (h : s.Holds vault made d)
    (hrestore : s.restore id d = .ok point d') :
    ∃ m ∈ made, m.point = point ∧
      Copied d d' point.files s.root.absolute (copyPlace vault point.id) (m.origin s) ∧
      ∀ name ∈ point.files, d.lookup (copyPlace vault point.id name) =
        m.disk.lookup (m.origin s name) := by
  obtain ⟨hfind, -, hput⟩ := restore_eq_ok_iff.mp hrestore
  have hmem := (mem_of_find hfind).1
  obtain ⟨logged, hsuffix, hlogged⟩ := h.logged
  obtain ⟨hfound, hdirectory⟩ := found_of_load h.seated.aims (List.ne_nil_of_mem hmem)
  rw [hlogged.load_eq (fun m hm => (h.fits m (hsuffix.mem hm)).time) h.seated hfound hdirectory]
    at hmem
  obtain ⟨m, hm, rfl⟩ := List.mem_map.mp hmem
  exact ⟨m, hsuffix.mem hm, rfl, (h.routes_putBack hlogged hsuffix hm).copied hput,
    hlogged.copies m hm⟩

/-- **Restoring a point keeps everything.** -/
theorem Holds.restored {point : RestorePoint} (h : s.Holds vault made d)
    (hrestore : s.restore id d = .ok point d') : s.Holds vault made d' := by
  obtain ⟨m, hm, rfl, hcopied, -⟩ := h.restored_spec hrestore
  have hoff (more : Place) : ∀ name ∈ m.point.files, vault ++ more ≠ m.origin s name :=
    fun name hname heq => (h.fits m hm).outside name hname (heq ▸ List.prefix_append vault more)
  exact h.of_kept hcopied.sameLinks (hcopied.kept _ (hoff _)) fun _ _ _ => hcopied.kept _ (hoff _)

/-- **The invariant holds** after any history. -/
theorem History.holds (h : s.History vault made d) : s.Holds vault made d := by
  induction h with
  | start aims empty =>
    refine ⟨⟨aims, fun more hmore target => by simp [empty more hmore]⟩, List.nodup_nil, nofun,
      nofun, nofun, [], List.suffix_rfl, .inr ⟨rfl, fun bytes => ?_⟩, nofun⟩
    simp [empty [logName] (List.cons_ne_nil _ _)]
  | created _ time outside success ih => exact ih.created time outside success
  | restored _ success ih => exact ih.restored success
  | edited _ links inside ih =>
    exact ih.of_kept links (.inl (inside _ (List.cons_ne_nil _ _))) fun _ _ _ =>
      .inl (inside _ (List.cons_ne_nil _ _))

end RestoreStore

end CodeAtlas
