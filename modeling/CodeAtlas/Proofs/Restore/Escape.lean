import CodeAtlas.Proofs.Path.Strays
import CodeAtlas.Proofs.Restore.Partial

/-!
# Where a restore writes

Setup: the names of a point come from the log as it stands on the disk. All of them are checked
before the first file is written, but the path of a name is that of the name as it is logged, and
the check looks at the name with slashes for backslashes. **`RestoreStore.restore_stays`** says what
that check is worth: a rejected name leaves the disk alone, and what is written lies under the root,
except where a name strays (`Path.Root.Strays`). Such a name always leads elsewhere. A store is
asked for one in `RestoreStore.restore_stays_astray`: it empties a file next to the root.
-/

namespace CodeAtlas

open CodeAtlas.Disk CodeAtlas.Path CodeAtlas.Text

/-! ## Where paths lead that go on from a text -/

namespace Disk

variable {d d' : Disk} {follow : Bool} {links : Nat} {here origin place : Place}
  {rest : List String} {text path : String}

/-- Where no links lie, components of which none leads up are entered one after the other. -/
theorem Leads.eq_append (h : Leads d follow links here rest place) (hup : ".." ∉ rest)
    (hplain : ∀ more target, d.lookup (here ++ more) ≠ some (.link target)) :
    place = here ++ rest.filter isNaming := by
  induction h with
  | arrive => exact (List.append_nil _).symm
  | idle _ idle _ ih =>
    rw [List.filter_cons_of_neg]
    · exact ih (fun hmem => hup (List.mem_cons_of_mem _ hmem)) hplain
    · rcases idle with rfl | rfl <;> decide
  | up => exact absurd List.mem_cons_self hup
  | stay _ _ _ link | jump _ _ _ link => exact absurd link (hplain _ _)
  | @enter _ here _ component rest _ idle _ _ _ ih =>
    have hnaming : isNaming component = true := by simpa [isNaming] using idle
    rw [List.filter_cons_of_pos hnaming,
      ih (fun hmem => hup (List.mem_cons_of_mem _ hmem)) fun more target => ?_,
      List.append_assoc]
    · rfl
    · rw [List.append_assoc]
      exact hplain _ target

/-- On a disk without links a path that leads nowhere up leads to its components. -/
theorem place_eq_components (h : d.locate true path = .ok place) (hup : ".." ∉ components path)
    (hplain : ∀ p target, d.lookup p ≠ some (.link target)) : place = components path :=
  (locate_iff_leads.mp h).eq_append (mem_components_dots.not.mp hup) fun more => hplain ([] ++ more)

/-- A path that goes on from a text, and never up, leads below the place of the text. -/
theorem Aims.prefix_of_append {cs : List Char} (haims : d.Aims text origin)
    (hpath : path.toList = text.toList ++ cs) (hcs : cs = [] ∨ cs.head? = some '/')
    (hup : ".." ∉ components (String.ofList cs))
    (hplain : ∀ more target, d.lookup (origin ++ more) ≠ some (.link target))
    (hlinks : d.SameLinks d') (h : d'.locate true path = .ok place) : origin <+: place := by
  rcases hcs with rfl | hcs
  · rw [List.append_nil, String.toList_inj] at hpath
    rw [haims d' hlinks place (hpath ▸ h)]
  · obtain ⟨inner, rfl⟩ := List.head?_eq_some_iff.mp hcs
    rw [components_cons_slash, mem_components_dots] at hup
    obtain rfl : path = String.ofList (text.toList ++ '/' :: inner) := by
        rw [← hpath, String.ofList_toList]
    rw [locate_iff_leads, splitOn_append_cons, String.ofList_toList] at h
    obtain ⟨links', mid, hmid, hrest⟩ := h.split (splitOn_ne_nil _)
    obtain rfl := haims d' hlinks mid (locate_iff_leads.mpr hmid)
    exact hrest.visits.prefix_of_down hup fun more _ => hlinks.ne_link (hplain more)

end Disk

namespace RestoreStore

variable {s : RestoreStore} {d : Disk} {id : String} {point : RestorePoint} {origin p : Place}

/-! ## The check of the names -/

/-- A run of checks succeeds if all of them do. -/
theorem forM_eq_ok_iff {ε α : Type} {f : α → Except ε PUnit} {as : List α} :
    as.forM f = .ok () ↔ ∀ a ∈ as, f a = .ok () := by
  induction as with
  | nil => exact iff_of_true rfl nofun
  | cons a as ih =>
    rw [List.forM_eq_forM] at ih ⊢
    rw [List.forM_cons, List.forall_mem_cons, ← ih]
    cases f a with
    | error e => exact iff_of_false nofun nofun
    | ok => exact (and_iff_right rfl).symm

/-- A run of checks fails as one of them does. -/
theorem exists_of_forM_eq_error {ε α : Type} {f : α → Except ε PUnit} {as : List α} {e : ε}
    (h : as.forM f = .error e) : ∃ a ∈ as, f a = .error e := by
  induction as with
  | nil => cases h
  | cons a as ih =>
    rw [List.forM_eq_forM] at ih h
    rw [List.forM_cons] at h
    cases hfirst : f a with
    | error cause =>
      rw [hfirst] at h
      exact ⟨a, List.mem_cons_self, hfirst.trans h⟩
    | ok =>
      rw [hfirst] at h
      obtain ⟨b, hb, hfail⟩ := ih h
      exact ⟨b, List.mem_cons_of_mem _ hb, hfail⟩

/-- The check of a point succeeds if every name is accepted. -/
theorem check_eq_ok_iff : s.check point = .ok () ↔
    ∀ name ∈ point.files, ∃ accepted, s.root.relative name = .ok accepted := by
  rw [check, forM_eq_ok_iff]
  refine forall₂_congr fun name _ => ?_
  cases s.root.relative name <;> simp

/-- A check that fails says why a name was rejected. -/
theorem check_eq_error {e : RestoreError} (h : s.check point = .error e) :
    ∃ cause, e = .unsafeName point.id cause := by
  obtain ⟨name, -, hname⟩ := exists_of_forM_eq_error h
  cases hrelative : s.root.relative name with
  | ok accepted => simp [hrelative] at hname
  | error cause =>
    simp only [hrelative, Except.error.injEq] at hname
    exact ⟨cause, hname.symm⟩

/-- **What a restore writes** are files of names that passed the check. -/
theorem fills_after_restore (s : RestoreStore) (id : String) (d : Disk) :
    ∃ (paths names : List String),
      d.Fills ((s.restore id).after d) paths (names.map s.root.absolute) ∧
      ∀ name ∈ names, ∃ point, s.find id d = .ok point ∧ s.check point = .ok () ∧
        name ∈ point.files := by
  rw [Change.after]
  cases h : s.restore id d with
  | ok point d' =>
    obtain ⟨hfind, hcheck, hput⟩ := restore_eq_ok_iff.mp h
    exact ⟨_, point.files, fills_of_forM hput, fun name hname => ⟨point, hfind, hcheck, hname⟩⟩
  | error e d' =>
    rcases restore_eq_error_iff.mp h with ⟨rfl, -⟩ | ⟨point, hfind, ⟨rfl, -⟩ | ⟨hcheck, hput⟩⟩
    · exact ⟨[], [], .refl _ _, fun _ hname => absurd hname List.not_mem_nil⟩
    · exact ⟨[], [], .refl _ _, fun _ hname => absurd hname List.not_mem_nil⟩
    · obtain ⟨done, name, rest, d₁, hfiles, hdone, hfail⟩ := forM_eq_error hput
      have hfills := (fills_of_forM hdone).trans (fills_of_copyTo_error hfail)
      rw [List.append_nil] at hfills
      refine ⟨_, done, hfills, fun a ha => ⟨point, hfind, hcheck, ?_⟩⟩
      rw [hfiles]
      exact List.mem_append_left _ ha

/-! ## Where the files lie -/

/-- **Where a restore writes.** -/
theorem restore_stays (s : RestoreStore) (id : String) (d : Disk) (origin : Place)
    (habsolute : isAbsolute s.root.directory = true) (hroot : '\\' ∉ s.root.directory.toList)
    (haims : d.Aims s.root.spelling origin)
    (hplain : ∀ more target, d.lookup (origin ++ more) ≠ some (.link target)) :
    (∀ p, ((s.restore id).after d).lookup p ≠ d.lookup p →
      (d.lookup p = none ∧ ((s.restore id).after d).lookup p = some .directory) ∨ origin <+: p ∨
        ∃ point name, s.find id d = .ok point ∧ name ∈ point.files ∧ s.root.Strays name ∧
          ((s.restore id).after d).locate true name = .ok p) ∧
    (∀ point name cause, s.find id d = .ok point → name ∈ point.files →
      s.root.relative name = .error cause →
        ∃ cause', s.restore id d = .error (.unsafeName point.id cause') d) ∧
    ((∀ p target, d.lookup p ≠ some (.link target)) → d.locate true s.root.directory = .ok origin →
      ".." ∉ components s.root.directory →
        (splitOn '/' s.root.spelling).getLast?.any isNaming = true →
        ∀ name accepted p, s.root.relative name = .ok accepted → s.root.Strays name →
          ((s.restore id).after d).locate true name = .ok p → ¬origin <+: p) := by
  obtain ⟨paths, names, hfills, hnames⟩ := s.fills_after_restore id d
  have hlinks := hfills.sameLinks
  generalize (s.restore id).after d = d' at hfills hlinks
  refine ⟨fun p hp => ?_, fun point name cause hfind hname hcause => ?_, ?_⟩
  · rcases hfills.lookup p with hsame | ⟨hnone, hnew, -⟩ | ⟨path, hpath, hlocate⟩
    · exact absurd hsame hp
    · exact .inl ⟨hnone, hnew⟩
    · obtain ⟨name, hname, rfl⟩ := List.mem_map.mp hpath
      obtain ⟨point, hfind, hcheck, hmem⟩ := hnames name hname
      obtain ⟨accepted, haccepted⟩ := check_eq_ok_iff.mp hcheck name hmem
      by_cases hstrays : s.root.Strays name
      · rw [Root.absolute, join, if_pos hstrays.1] at hlocate
        exact .inr (.inr ⟨point, name, hfind, hmem, hstrays, hlocate⟩)
      · obtain ⟨rest, hrest, hcontinues, hup⟩ :=
          Root.continues_of_accepted habsolute hroot haccepted hstrays
        exact .inr (.inl (haims.prefix_of_append hrest hcontinues hup hplain hlinks hlocate))
  · cases hcheck : s.check point with
    | ok =>
      obtain ⟨accepted, haccepted⟩ := check_eq_ok_iff.mp hcheck name hname
      rw [hcause] at haccepted
      cases haccepted
    | error e =>
      obtain ⟨cause', rfl⟩ := check_eq_error hcheck
      exact ⟨cause', restore_eq_error_iff.mpr (.inr ⟨point, hfind, .inl ⟨rfl, hcheck⟩⟩)⟩
  · intro hnolinks hfound hdots hlast name accepted p haccepted hstrays hlocate
    have horigin := place_eq_components hfound hdots hnolinks
    have hname := Root.dots_notMem_of_accepted hroot hdots hstrays.1 haccepted
    have hp := place_eq_components hlocate hname fun q => hlinks.ne_link (hnolinks q)
    rw [horigin, hp]
    exact Root.not_prefix_of_strays hroot hlast haccepted hstrays

/-! ## A name that strays

The log was tampered with: the name of its file is the path of the root, with a backslash for a
slash, and a component more. -/

/-- The point of that log. -/
def astrayPoint : RestorePoint :=
  ⟨"p", 0, ["/a\\b/x"], "m"⟩

/-- The store of a root two directories below the top. -/
def astrayStore : RestoreStore :=
  ⟨Root.ofDirectory "/a/b" [], "/s", 1⟩

/-- The root, a file in a directory next to it, and a store with a log. -/
def astray (log : ByteArray) : Disk :=
  (((((Disk.empty.put ["a"] .directory).put ["a", "b"] .directory).put ["a\\b"] .directory).put
    ["a\\b", "x"] (.file "x".toUTF8)).put ["s"] .directory).put ["s", logName] (.file log)

/-- No links stand there. -/
theorem lookup_astray_ne_link (log : ByteArray) (p : Place) (target : String) :
    (astray log).lookup p ≠ some (.link target) := by
  simp only [astray, lookup_put (List.cons_ne_nil _ _), lookup_empty]
  split_ifs <;> exact nofun

/-- The name leads to the file. -/
theorem locate_astray (log : ByteArray) : (astray log).locate true "/a\\b" = .ok ["a\\b"] ∧
    (astray log).locate true "/a\\b/x" = .ok ["a\\b", "x"] := by
  constructor <;> cbv

/-- It is a path as it stands. -/
theorem join_astray (directory : String) : join directory "/a\\b/x" = "/a\\b/x" :=
  if_pos (by decide)

/-- The file is copied onto itself. -/
theorem astray_copy (log : ByteArray) : Disk.copy "/a\\b/x" "/a\\b/x" (astray log) =
    .ok () ((astray log).put ["a\\b", "x"] (.file ByteArray.empty)) := by
  have hfile : (astray log).lookup ["a\\b", "x"] = some (.file "x".toUTF8) := by cbv
  have hdirectory : (astray log).lookup ["a\\b"] = some .directory := by cbv
  have hname : IsName "x" := ⟨by decide, by decide, by decide, by decide⟩
  have hwritable := writable_join (locate_astray log).1 hdirectory hname
    (by rw [show (astray log).lookup (["a\\b"] ++ ["x"]) = _ from hfile]; trivial)
  rw [show join "/a\\b" "x" = "/a\\b/x" by decide] at hwritable
  simp [Disk.copy, canonical?, locate_astray, hfile, hwritable]

/-- Nothing else is put back. -/
theorem astray_putBack (log : ByteArray) : astrayStore.putBack astrayPoint (astray log) =
    .ok () ((astray log).put ["a\\b", "x"] (.file ByteArray.empty)) := by
  have hdirectory : (astray log).lookup ["a\\b"] = some .directory := by cbv
  have hmade := makeDirectories_of_directory (locate_astray log).1 hdirectory
  have hparent : parent? "/a\\b/x" = some "/a\\b" := by cbv
  rw [putBack, List.forM_eq_forM, astrayPoint, List.forM_cons, Root.absolute, join_astray,
    join_astray]
  exact bind_eq_ok.mpr ⟨(), _, copyTo_of_copy hparent hmade (astray_copy log), rfl⟩

/-- The root is spelled as it is given. -/
theorem astrayStore_spelling : astrayStore.root.spelling = "/a/b" := by cbv

/-- The point is found in its log. -/
theorem astray_find :
    astrayStore.find "p" (astray (RestorePoint.logText [astrayPoint]).toUTF8) =
      .ok astrayPoint := by
  generalize hlog : (RestorePoint.logText [astrayPoint]).toUTF8 = log
  have hfile : (astray log).lookup (["s"] ++ [logName]) = some (.file log) := by cbv
  have hpath : (astray log).locate true astrayStore.logPath = .ok (["s"] ++ [logName]) :=
    locate_join true (show (astray log).locate true "/s" = .ok ["s"] by cbv) (by cbv) isName_logName
      (lookup_astray_ne_link log _)
  have hload : astrayStore.load (astray log) = [astrayPoint] :=
    load_of_text hpath (by rw [hlog, hfile]) (by decide)
  simp only [find, hload]
  rfl

/-- **A restore empties a file next to the root.** -/
theorem restore_stays_astray : ∃ d d', astrayStore.restore "p" d = .ok astrayPoint d' ∧
    d.locate true astrayStore.root.directory = .ok ["a", "b"] ∧
    (∀ p target, d.lookup p ≠ some (.link target)) ∧
    d.read "/a\\b/x" = .ok "x".toUTF8 ∧ d'.read "/a\\b/x" = .ok ByteArray.empty ∧
    ∃ name ∈ astrayPoint.files, astrayStore.root.Strays name ∧
      d'.locate true name = .ok ["a\\b", "x"] ∧ ¬["a", "b"] <+: ["a\\b", "x"] := by
  have hfind := astray_find
  have hcheck : astrayStore.check astrayPoint = .ok () := by cbv
  generalize (RestorePoint.logText [astrayPoint]).toUTF8 = log at hfind
  have hrestore := restore_eq_ok_iff.mpr ⟨hfind, hcheck, astray_putBack log⟩
  have hfound : (astray log).locate true "/a/b" = .ok ["a", "b"] := by cbv
  have hbytes : (astray log).lookup ["a\\b", "x"] = some (.file "x".toUTF8) := by cbv
  have hnolinks := lookup_astray_ne_link log
  have hlocate := (locate_astray log).2
  have hread := read_eq_ok_iff.mpr ⟨_, hlocate, hbytes⟩
  have hput := lookup_put (d := astray log) (List.cons_ne_nil "a\\b" ["x"]) (.file ByteArray.empty)
  have hways :=
    sameWays_put (List.cons_ne_nil "a\\b" ["x"]) (by rw [hbytes]; trivial) ByteArray.empty
  generalize (astray log).put ["a\\b", "x"] (.file ByteArray.empty) = d' at hrestore hput hways
  generalize astray log = d at *
  have hafter : Change.after (astrayStore.restore "p") d = d' := by rw [Change.after, hrestore]
  have hlocate' := hways.locate_iff.mp hlocate
  obtain ⟨hwrites, -, houtside⟩ := restore_stays astrayStore "p" d ["a", "b"] (by decide)
    (by decide)
    (by rw [astrayStore_spelling]; exact aims_of_locate hfound) fun more target => hnolinks _ target
  rw [hafter] at hwrites houtside
  refine ⟨d, d', hrestore, hfound, hnolinks, hread,
    read_eq_ok_iff.mpr ⟨_, hlocate', by rw [hput, if_pos rfl]⟩, ?_⟩
  -- the file has changed, so its name strays
  have hchanged : d'.lookup ["a\\b", "x"] ≠ d.lookup ["a\\b", "x"] := by
    rw [hput, if_pos rfl, hbytes]
    decide
  rcases hwrites _ hchanged with ⟨hnone, -⟩ | hunder | ⟨point, name, hpoint, hname, hstrays, hplace⟩
  · rw [hbytes] at hnone
    cases hnone
  · exact absurd hunder (by decide)
  · rw [hfind, Except.ok.injEq] at hpoint
    subst hpoint
    obtain ⟨accepted, haccepted⟩ := check_eq_ok_iff.mp hcheck name hname
    exact ⟨name, hname, hstrays, hplace, houtside hnolinks hfound (by decide)
      (by rw [astrayStore_spelling]; decide) name accepted _ haccepted hstrays hplace⟩

end RestoreStore

end CodeAtlas
