import Mathlib
import CodeAtlas.Proofs.Restore.History

/-!
# What creating a point deletes

Setup: a call copies files aside, evicts the oldest points and writes the log. Copying deletes
nothing (`Change.Keeps`), and writing the log only moves the draft away. So what a call deletes is
what its evictions take: **`RestoreStore.create_deletes`**.

The ids of the points that go come from the log as it stands on the disk, and they are not checked.
An id that is a name leads to a tree of its own in the store. Any other id leads wherever its path
leads: to the whole store, or out of it (`RestoreStore.create_deletes_outside`).
-/

namespace CodeAtlas

open CodeAtlas.Disk CodeAtlas.Path

/-! ## Changes that delete nothing -/

/-- Where something stood something stands after the change. -/
def Change.Keeps {ε α : Type} (c : Change ε α) : Prop :=
  ∀ (d : Disk) (p : Place), (d.lookup p).isSome → ((c.after d).lookup p).isSome

section

variable {ε ε' α β : Type} {d : Disk} {p : Place}

namespace Change.Keeps

/-- What is gone after two changes was deleted by the second, if the first deletes nothing. -/
theorem gone_of_bind {c : Change ε α} {k : α → Change ε β} (hc : c.Keeps) (hp : (d.lookup p).isSome)
    (hgone : ((c >>= k).after d).lookup p = none) :
    ∃ a d', c d = .ok a d' ∧ (d'.lookup p).isSome ∧ ((k a).after d').lookup p = none := by
  have hfirst := hc d p hp
  rw [Change.after_bind] at hgone
  rw [Change.after] at hfirst
  cases hresult : c d with
  | ok a d' =>
    simp only [hresult] at hgone hfirst
    exact ⟨a, d', rfl, hfirst, hgone⟩
  | error e d' =>
    simp only [hresult] at hgone hfirst
    rw [hgone] at hfirst
    cases hfirst

theorem bind {c : Change ε α} {k : α → Change ε β} (hc : c.Keeps) (hk : ∀ a, (k a).Keeps) :
    (c >>= k).Keeps := by
  intro d p hp
  by_contra hgone
  rw [Option.not_isSome_iff_eq_none] at hgone
  obtain ⟨a, d', -, hp', hgone'⟩ := hc.gone_of_bind hp hgone
  have hkept := hk a d' p hp'
  rw [hgone'] at hkept
  cases hkept

theorem reporting {c : Change ε α} (f : ε → ε') (hc : c.Keeps) : (Disk.reporting f c).Keeps := by
  intro d p hp
  rw [Change.after_reporting]
  exact hc d p hp

/-- A run of such changes. -/
theorem forM {f : α → Change ε PUnit} (hf : ∀ a, (f a).Keeps) (as : List α) :
    (as.forM f).Keeps := by
  induction as with
  | nil => exact fun d p hp => hp
  | cons a as ih => exact (hf a).bind fun _ => ih

end Change.Keeps

/-- A new entry deletes nothing. -/
theorem Disk.isSome_lookup_put {place : Place} (hplace : place ≠ []) (entry : Entry)
    (hp : (d.lookup p).isSome) : ((d.put place entry).lookup p).isSome := by
  rw [lookup_put hplace]
  split_ifs
  · rfl
  · exact hp

/-- Making directories deletes nothing. -/
theorem Disk.keeps_makeDirectories (path : String) : (makeDirectories path).Keeps := by
  intro d p hp
  obtain ⟨entry, hentry⟩ := Option.isSome_iff_exists.mp hp
  rw [(grows_after_makeDirectories path d).lookup_of_some hentry]
  rfl

/-- Writing a file deletes nothing. -/
theorem Disk.keeps_write (path : String) (bytes : ByteArray) : (write path bytes).Keeps := by
  intro d p hp
  rw [Change.after, write]
  cases hwritable : d.writable path with
  | error e => exact hp
  | ok place => exact isSome_lookup_put (dead_of_writable hwritable).2.ne_nil _ hp

/-- Copying a file deletes nothing. -/
theorem Disk.keeps_copy (source target : String) : (copy source target).Keeps := by
  intro d p hp
  rw [Change.after]
  cases hcopy : copy source target d with
  | ok _ d' =>
    obtain ⟨-, -, -, -, goal, -, hdead, content, rfl, -⟩ := copy_inv hcopy
    exact isSome_lookup_put hdead.ne_nil _ hp
  | error e d' =>
    rw [copy_error_inv hcopy]
    exact hp

/-- What moving an entry leaves: the disk as it was, or the entry at another place. -/
theorem Disk.after_rename (d : Disk) (source target : String) : (rename source target).after d = d ∨
    ∃ origin place entry, d.locate false source = .ok origin ∧ place ≠ [] ∧
      (rename source target).after d = (d.cut origin).put place entry := by
  rw [Change.after, rename]
  cases hsource : d.locate false source with
  | error e => exact .inl rfl
  | ok origin =>
    cases hentry : d.lookup origin with
    | none => exact .inl (by simp only [hentry])
    | some entry =>
      cases htarget : d.locate false target with
      | error e => exact .inl (by simp only [hentry])
      | ok place =>
        simp only [hentry]
        split
        · next hresult =>
          split at hresult
          · cases hresult
          · next hdirectory =>
            have hplace : place ≠ [] := by
              rintro rfl
              exact hdirectory rfl
            split_ifs at hresult <;> cases hresult
            · exact .inl rfl
            · exact .inr ⟨origin, place, entry, rfl, hplace, rfl⟩
        · next hresult =>
          split at hresult
          · cases hresult
            exact .inl rfl
          · split_ifs at hresult

/-- Moving an entry leaves nothing where it stood, and takes nothing else away. -/
theorem Disk.prefix_of_rename {source target : String} (hp : (d.lookup p).isSome)
    (hgone : ((rename source target).after d).lookup p = none) :
    ∃ origin, d.locate false source = .ok origin ∧ origin <+: p := by
  rcases d.after_rename source target with hsame | ⟨origin, place, entry, horigin, hplace, hmoved⟩
  · rw [hsame] at hgone
    rw [hgone] at hp
    cases hp
  · refine ⟨origin, horigin, ?_⟩
    by_contra hprefix
    have hcut : origin ≠ [] := fun hnil => hprefix (hnil ▸ List.nil_prefix)
    rw [hmoved] at hgone
    have hstays := isSome_lookup_put (d := d.cut origin) hplace entry (p := p)
      (by rwa [lookup_cut hcut, if_neg hprefix])
    rw [hgone] at hstays
    cases hstays

end

namespace RestoreStore

variable {s : RestoreStore} {now number : Nat} {paths names : List String} {message : String}
  {d e d' : Disk} {point : RestorePoint} {p vault : Place} {id : String}

/-- Copying files aside deletes nothing. -/
theorem keeps_backUp (s : RestoreStore) (id : String) (names : List String) :
    (s.backUp id names).Keeps := by
  refine .forM (fun name => ?_) names
  have hcopy := (Disk.keeps_copy (s.root.absolute name) (join (s.pointDirectory id) name)).reporting
    (RestoreError.backup name)
  cases hparent : parent? (join (s.pointDirectory id) name) with
  | none => simpa only [copyTo, hparent] using hcopy
  | some parent =>
    simp only [copyTo, hparent]
    exact ((Disk.keeps_makeDirectories parent).reporting _).bind fun _ => hcopy

/-- Copying files aside changes no links. -/
theorem sameLinks_backUp (h : s.backUp id names d = .ok () d') : d.SameLinks d' :=
  (fills_of_forM h).sameLinks

/-! ## Writing the log -/

/-- `p` lies where the draft of the log is moved away from, when the log is written on this disk. -/
def Drafts (s : RestoreStore) (d : Disk) (p : Place) : Prop :=
  ∃ home, ((makeDirectories s.directory).after d).locate true s.directory = .ok home ∧
    home ++ [logName ++ ".tmp"] <+: p

/-- **Writing the log** deletes at most its draft. -/
theorem drafts_of_save (points : List RestorePoint) (hp : (d.lookup p).isSome)
    (hgone : ((s.save points).after d).lookup p = none) : s.Drafts d p := by
  rw [save, Change.after_reporting, Disk.save] at hgone
  obtain ⟨_, made, hmake, hp, hgone⟩ :=
    ((Disk.keeps_makeDirectories s.directory).reporting _).gone_of_bind hp hgone
  obtain ⟨_, drafted, hwrite, hp, hgone⟩ :=
    ((Disk.keeps_write _ _).reporting _).gone_of_bind hp hgone
  rw [Change.after_reporting] at hgone
  obtain ⟨origin, horigin, hprefix⟩ := Disk.prefix_of_rename hp hgone
  obtain ⟨home, hhome, -, hplace⟩ := locate_join_inv horigin isName_draft
  rw [hplace (.inl rfl)] at hprefix
  refine ⟨home, ?_, hprefix⟩
  rw [Change.after, reporting_eq_ok.mp hmake]
  -- the draft is a file, and files change no ways
  obtain ⟨place, hwritable, rfl⟩ := write_inv (reporting_eq_ok.mp hwrite)
  have hdead := (dead_of_writable hwritable).2
  exact (sameWays_put hdead.ne_nil hdead _).locate_iff.mpr hhome

/-! ## The whole call -/

/-- A call that finds its files copies them and logs the point. -/
theorem create_disk_eq (hnames : s.namesOf d paths = .ok names) :
    (s.create now number paths message d).disk =
      (s.record (idOf now number) now names message).after d := by
  simp only [create, hnames, Change.after]
  cases s.record (idOf now number) now names message d <;> rfl

/-- Logging evicts and writes the log. -/
theorem after_log (s : RestoreStore) (d : Disk) (point : RestorePoint) :
    (s.log point >>= fun _ => pure point : Change RestoreError RestorePoint).after d =
      (s.save (s.staying d point)).after (s.evict (s.evicted d point) d) := by
  rw [Change.after_bind, log_eq, Change.after]
  cases s.save (s.staying d point) (s.evict (s.evicted d point) d) <;> rfl

/-- A call that logs a point leaves what evicting and writing the log leave. -/
theorem Logs.disk_eq (h : s.Logs now number paths message d point e) :
    (s.create now number paths message d).disk =
      (s.save (s.staying e point)).after (s.evict (s.evicted e point) e) := by
  have hpoint := h.point_eq
  have hcopied := h.copied
  rw [hpoint] at hcopied
  rw [create_disk_eq h.names, record, Change.after_bind, hcopied, ← hpoint]
  exact s.after_log e point

/-- What is gone after a call was there when the point was logged, and writing the log or an
eviction took it. -/
theorem logs_of_gone (hp : (d.lookup p).isSome)
    (hgone : (s.create now number paths message d).disk.lookup p = none) :
    ∃ point e, s.Logs now number paths message d point e ∧
      (s.Taken p (s.evicted e point) e ∨ s.Drafts (s.evict (s.evicted e point) e) p) := by
  cases hnames : s.namesOf d paths with
  | error cause =>
    rw [create] at hgone
    simp only [hnames] at hgone
    rw [hgone] at hp
    cases hp
  | ok names =>
    rw [create_disk_eq hnames, record] at hgone
    obtain ⟨_, e, hcopied, hp, hgone⟩ := (s.keeps_backUp _ names).gone_of_bind hp hgone
    rw [after_log] at hgone
    let point : RestorePoint := ⟨idOf now number, now, names, message⟩
    refine ⟨point, e, ⟨hnames, rfl, hcopied⟩, ?_⟩
    by_cases htaken : s.Taken p (s.evicted e point) e
    · exact .inl htaken
    · rw [← lookup_evict_of_not_taken htaken] at hp
      exact .inr (drafts_of_save _ hp hgone)

/-- **What a call that creates a point deletes**: what its evictions take, which follow the ids of
the points that go, and at most the draft of the log. Evictions whose ids are names stay in the
trees of these names in the store. -/
theorem create_deletes (haims : d.Aims s.directory vault) :
    (∀ p, (d.lookup p).isSome → (s.create now number paths message d).disk.lookup p = none →
      ∃ point e, s.Logs now number paths message d point e ∧
        (s.Taken p (s.evicted e point) e ∨ s.Drafts (s.evict (s.evicted e point) e) p)) ∧
    ∀ point e, s.Logs now number paths message d point e →
      (s.create now number paths message d).disk =
        (s.save (s.staying e point)).after (s.evict (s.evicted e point) e) ∧
      (∀ p, (s.evict (s.evicted e point) e).lookup p = none ↔
        e.lookup p = none ∨ s.Taken p (s.evicted e point) e) ∧
      ((∀ gone ∈ s.evicted e point, IsName gone.id) → ∀ p, s.Taken p (s.evicted e point) e →
        ∃ gone ∈ s.evicted e point, vault ++ [gone.id] <+: p ∧
          ∀ kept ∈ s.staying e point, kept.id ≠ gone.id → ¬vault ++ [kept.id] <+: p) := by
  refine ⟨fun p hp hgone => logs_of_gone hp hgone,
    fun point e hlogs => ⟨hlogs.disk_eq, fun p => ?_, ?_⟩⟩
  · by_cases htaken : s.Taken p (s.evicted e point) e
    · exact iff_of_true (lookup_evict_of_taken htaken) (.inr htaken)
    · rw [lookup_evict_of_not_taken htaken, or_iff_left htaken]
  · intro hids p htaken
    have haims' := haims.sameLinks (sameLinks_backUp hlogs.copied)
    obtain ⟨gone, hmem, hprefix⟩ := prefix_of_taken hids haims' htaken
    refine ⟨gone, hmem, hprefix, fun kept _ hother hkept => hother ?_⟩
    -- two names of one length in front of a place are the same
    have hsame := List.prefix_of_prefix_length_le hkept hprefix (by simp)
    simpa using hsame

/-! ## An id that leads out of the store

The log was tampered with: its point has a path out of the store for an id. A call makes a new
point, the other one goes, and so does the directory at its path. -/

/-- The point of that log. -/
def strayPoint : RestorePoint :=
  ⟨"../victim", 0, [], "m"⟩

/-- A root with a file, a directory with another file, and a store with a log. -/
def neighbours (log : ByteArray) : Disk :=
  (((((Disk.empty.put ["r"] .directory).put ["r", "a"] (.file "a".toUTF8)).put ["r", "victim"]
    .directory).put
    ["r", "victim", "x"] (.file "x".toUTF8)).put ["r", "s"] .directory).put ["r", "s", logName]
      (.file log)

/-- The store that keeps one point. -/
def strayStore : RestoreStore :=
  ⟨Root.ofDirectory "/r" [], "/r/s", 1⟩

/-- The point that the call makes. -/
def strayNext : RestorePoint :=
  ⟨"rp-7-0", 7, ["a"], "one"⟩

/-- The disk when the file has been copied, before the point is logged. -/
def neighboursCopied (log : ByteArray) : Disk :=
  ((neighbours log).put ["r", "s", "rp-7-0"] .directory).put ["r", "s", "rp-7-0", "a"]
    (.file "a".toUTF8)

/-- The call gets as far as logging its point. -/
theorem strayNext_logs (log : ByteArray) :
    strayStore.Logs 7 0 ["a"] "one" (neighbours log) strayNext (neighboursCopied log) := by
  have hroot : strayStore.root.absolute "a" = "/r/a" := by cbv
  have hdirectory : strayStore.pointDirectory "rp-7-0" = "/r/s/rp-7-0" := by
    simp [pointDirectory, strayStore, join, isAbsolute]
  have hcopy : join "/r/s/rp-7-0" "a" = "/r/s/rp-7-0/a" := by simp [join, isAbsolute]
  have hnew (more : Place) : (neighbours log).lookup (["r", "s"] ++ "rp-7-0" :: more) = none := by
    simp [neighbours, lookup_put, lookup_empty, logName]
  refine ⟨by cbv, by rw [show idOf 7 0 = "rp-7-0" by cbv, strayNext], ?_⟩
  have hcopied := backUp_one (s := strayStore) (by rw [hroot]; cbv)
    (show (neighbours log).lookup ["r", "a"] = some (.file "a".toUTF8) by cbv)
    (show (neighbours log).locate true "/r/s" = .ok ["r", "s"] by cbv) (by cbv)
    ⟨by decide, by decide, by decide, by decide⟩ ⟨by decide, by decide, by decide, by decide⟩ hnew
    (by rw [hdirectory, hcopy]; cbv)
  exact hcopied

/-- The point of the log is the one that goes. -/
theorem strayPoint_evicted :
    let e := neighboursCopied (RestorePoint.logText [strayPoint]).toUTF8
    strayStore.evicted e strayNext = [strayPoint] ∧
      strayStore.staying e strayNext = [strayNext] := by
  intro e
  have hlog : e.lookup (["r", "s"] ++ [logName]) =
      some (.file (RestorePoint.logText [strayPoint]).toUTF8) := by
    simp [e, neighboursCopied, neighbours, lookup_put, logName]
  have hlocate : e.locate true strayStore.logPath = .ok (["r", "s"] ++ [logName]) := by
    refine locate_join true ?_ ?_ isName_logName (by rw [hlog]; simp)
    · show (neighboursCopied _).locate true "/r/s" = .ok ["r", "s"]
      generalize (RestorePoint.logText [strayPoint]).toUTF8 = log
      cbv
    · simp [e, neighboursCopied, neighbours, lookup_put, logName]
  have hload : strayStore.load e = [strayPoint] := load_of_text hlocate hlog (by decide)
  rw [evicted, staying, hload]
  exact ⟨rfl, rfl⟩

/-- With it goes the directory next to the store. -/
theorem strayPoint_evict (log : ByteArray) :
    strayStore.evict [strayPoint] (neighboursCopied log) =
      (neighboursCopied log).cut ["r", "victim"] := by
  have hpath : strayStore.pointDirectory strayPoint.id = "/r/s/../victim" := by
    simp [strayPoint, strayStore, pointDirectory, join, isAbsolute]
  have hlocate : (neighboursCopied log).locate false "/r/s/../victim" = .ok ["r", "victim"] := by
    cbv
  have hentry : (neighboursCopied log).lookup ["r", "victim"] = some .directory := by cbv
  have hdots : endsInDots "/r/s/../victim" = false := by cbv
  simp only [evict, List.foldl, dropped, hpath, Change.after, removeTree, hlocate, hentry, hdots]
  rfl

/-- The call succeeds, and nothing is left of the directory. -/
theorem stray_create : ∃ d', strayStore.create 7 0 ["a"] "one"
      (neighbours (RestorePoint.logText [strayPoint]).toUTF8) = ⟨.ok strayNext, 1, d'⟩ ∧
    ∀ more, d'.lookup (["r", "victim"] ++ more) = none := by
  obtain ⟨hevicted, hstaying⟩ := strayPoint_evicted
  have hlogs := strayNext_logs (RestorePoint.logText [strayPoint]).toUTF8
  have hevict := strayPoint_evict (RestorePoint.logText [strayPoint]).toUTF8
  generalize (RestorePoint.logText [strayPoint]).toUTF8 = log at *
  have hroom : ((neighboursCopied log).cut ["r", "victim"]).Room "/r/s" ["r", "s"] logName := by
    refine ⟨by cbv, by cbv, isName_logName, isName_draft, ?_, ?_⟩
    · rw [show ((neighboursCopied log).cut ["r", "victim"]).lookup (["r", "s"] ++ [logName]) =
        some (.file log) by cbv]
      trivial
    · rw [show ((neighboursCopied log).cut ["r", "victim"]).lookup
        (["r", "s"] ++ [logName ++ ".tmp"]) = none by cbv]
      trivial
  obtain ⟨d', hsave, -, hlookup⟩ := save_of_room hroom (RestorePoint.logText [strayNext])
  refine ⟨d', ?_, fun more => ?_⟩
  · refine create_eq_ok_iff.mpr ⟨rfl, _, hlogs, ?_⟩
    rw [hevicted, hstaying, hevict]
    exact reporting_eq_ok.mpr hsave
  · rw [hlookup, if_neg (by simp), if_neg (by simp), lookup_cut (List.cons_ne_nil _ _),
      if_pos (List.prefix_append _ _)]

/-- **An id of the log can delete what lies outside the store.** -/
theorem create_deletes_outside : ∃ log d', strayStore.create 7 0 ["a"] "one" (neighbours log) =
      ⟨.ok strayNext, 1, d'⟩ ∧
    (neighbours log).Aims strayStore.directory ["r", "s"] ∧ ¬["r", "s"] <+: ["r", "victim", "x"] ∧
    (neighbours log).lookup ["r", "victim", "x"] = some (.file "x".toUTF8) ∧
    d'.lookup ["r", "victim", "x"] = none ∧
    strayStore.Taken ["r", "victim", "x"] (strayStore.evicted (neighboursCopied log) strayNext)
      (neighboursCopied log) := by
  obtain ⟨d', hcreate, hgone⟩ := stray_create
  have hevicted := strayPoint_evicted.1
  refine ⟨(RestorePoint.logText [strayPoint]).toUTF8, d', hcreate, ?_⟩
  generalize (RestorePoint.logText [strayPoint]).toUTF8 = log at *
  have haims : (neighbours log).Aims strayStore.directory ["r", "s"] :=
    aims_of_locate (show (neighbours log).locate true "/r/s" = .ok ["r", "s"] by cbv)
  have hcopied : (neighboursCopied log).lookup ["r", "victim", "x"] = some (.file "x".toUTF8) := by
    cbv
  obtain ⟨-, hexact, -⟩ :=
    (create_deletes haims).2 strayNext (neighboursCopied log) (strayNext_logs log)
  refine ⟨haims, by decide, by cbv, hgone ["x"],
    ((hexact ["r", "victim", "x"]).mp ?_).resolve_left ?_⟩
  · rw [hevicted, strayPoint_evict, lookup_cut (List.cons_ne_nil _ _), if_pos (by decide)]
  · rw [hcopied]
    simp

end RestoreStore

end CodeAtlas
