import CodeAtlas.Ignore.Rules
import CodeAtlas.Proofs.Disk.Save
import CodeAtlas.Walk

/-!
# What a walk finds

Setup: a root directory stands at the place `origin` of a disk (`Disk.Rooted`). A walk goes through
the entries of the whole disk and picks the files below `origin` that the rules and the root let
pass; on a disk as a file system holds it, the directories on the way to a file need no look of
their own.

* **`Disk.mem_walk`** — a walk finds the files that it may see (`Disk.sees`), each by its name and
  its path.
* **`Disk.Sound.locate_pathBelow`** — the path of a file leads to its place.
* **`Disk.walk_congr`** — a walk finds the same on two disks with the same files, if the verdict of
  the rules is the same.
* `Disk.ReadFrom` — the rules are read from certain files, as **`Disk.readFrom_skipRules`** says of
  `skipRules`.
-/

namespace CodeAtlas.Disk

open CodeAtlas.Path CodeAtlas.Ignore

variable {d d' : Disk} {root : Root} {origin : Place} {names : List String}

/-! ## Entries -/

/-- A choice among the entries depends only on what stands at each place. -/
theorem filterMap_entries_congr {β : Type} {f f' : Place × Entry → Option β}
    (h : ∀ place, (d.entries[place]?.bind fun entry => f (place, entry)) =
      d'.entries[place]?.bind fun entry => f' (place, entry)) :
    d.entries.toList.filterMap f = d'.entries.toList.filterMap f' := by
  have hchosen (t : Std.TreeMap Place Entry) (f : Place × Entry → Option β) :
      t.toList.filterMap f = (t.filterMap fun place entry => f (place, entry)).toList.map
        (·.2) := by
    rw [Std.TreeMap.toList_filterMap, List.map_filterMap]
    refine List.filterMap_congr fun p _ => ?_
    rw [Option.map_map]
    exact (Option.map_id' ..).symm
  rw [hchosen, hchosen]
  congr 1
  refine Std.TreeMap.Equiv.toList_eq (.of_forall_constGet?_eq fun place => ?_)
  rw [Std.TreeMap.getElem?_filterMap', Std.TreeMap.getElem?_filterMap']
  exact h place

/-- An entry has names, and the places on the way to it are directories. -/
theorem Sound.directory_of_append (hd : d.Sound) {place : Place} {more : List String}
    (hne : more ≠ [])
    (h : (d.lookup (place ++ more)).isSome) : d.lookup place = some .directory := by
  by_contra hplace
  rw [hd.lookup_append hplace more hne] at h
  cases h

/-- Each component of a place where something stands is a name. -/
theorem Sound.isName (hd : d.Sound) (place : Place) (h : (d.lookup (place ++ names)).isSome) :
    ∀ name ∈ names, IsName name := by
  intro name hname
  obtain ⟨before, after, rfl⟩ := List.append_of_mem hname
  refine hd.named (place ++ before) name ?_
  cases after with
  | nil => rwa [List.append_assoc]
  | cons next after =>
    rw [show place ++ (before ++ name :: next :: after) =
      place ++ before ++ [name] ++ (next :: after) by simp] at h
    rw [hd.directory_of_append (List.cons_ne_nil next after) h]
    rfl

/-- The path of names below a directory leads to the place of these names, unless a link stands
there. -/
theorem Sound.locate_pathBelow (hd : d.Sound) {path : String}
    (hpath : d.locate true path = .ok origin)
    {entry : Entry} (hentry : d.lookup (origin ++ names) = some entry)
    (hlink : ∀ target, entry ≠ .link target) :
    d.locate true (pathBelow path names) = .ok (origin ++ names) := by
  induction names using List.reverseRecOn generalizing entry with
  | nil =>
    rw [List.append_nil]
    exact hpath
  | append_singleton names name ih =>
    rw [← List.append_assoc] at hentry ⊢
    have hsome : (d.lookup (origin ++ names ++ [name])).isSome := by rw [hentry]; rfl
    have hparent := hd.parent _ _ hsome
    rw [pathBelow, List.foldl_append]
    have hbefore := ih hparent fun target hlink => by cases hlink
    refine locate_join true hbefore hparent (hd.named _ _ hsome) ?_
    intro target htarget
    rw [hentry] at htarget
    exact hlink target (Option.some.inj htarget)

/-- On the way to a file there are directories. -/
theorem Sound.goesThrough_eq (hd : d.Sound) {bytes : ByteArray}
    (hfile : d.lookup (origin ++ names) = some (.file bytes)) (skips : Skips) (start : String) :
    d.goesThrough skips root start origin names =
      (onTheWay names).all fun way => passes skips root start origin way true := by
  rw [goesThrough, Bool.eq_iff_iff, List.all_eq_true, List.all_eq_true]
  refine forall₂_congr fun way hway => ?_
  obtain ⟨n, hn, rfl⟩ := List.mem_map.mp hway
  have hrest : names.drop (n + 1) ≠ [] := by
    rw [Ne, List.drop_eq_nil_iff]
    have := List.mem_range.mp hn
    omega
  have hsome : (d.lookup (origin ++ names.take (n + 1) ++ names.drop (n + 1))).isSome := by
    rw [List.append_assoc, List.take_append_drop, hfile]
    rfl
  rw [hd.directory_of_append hrest hsome]
  simp

/-- A walk from a directory picks from the entries of the disk. -/
theorem walk_of_locate (skips : Skips) (hfound : d.locate true root.directory = .ok origin)
    (hdirectory : d.lookup origin = some .directory) :
    d.walk skips root {} = (d.entries.toList.filterMap fun (place, entry) =>
      d.reached? skips root {} root.directory origin place entry).mergeSort byName := by
  have hcanonical : d.canonical? root.directory = .ok origin := by
    rw [canonical?, hfound]
    simp only [hdirectory]
    rfl
  have hstart : walkStart root {} = root.directory := rfl
  have hstands : (d.lookup origin != some .directory) = false := by rw [hdirectory]; rfl
  rw [walk, hstart, hcanonical]
  simp only [hstands, Bool.false_eq_true, if_false]

/-! ## A root directory on a disk -/

/-- The directory of a root stands at `origin`. The names of the files below it, apart from those
`aside`, have no backslash and no colon. -/
structure Rooted (d : Disk) (root : Root) (origin : Place) (aside : Place → Prop) : Prop where
  /-- the disk is as a file system holds it -/
  sound : d.Sound
  /-- the path of the root starts at the top of the disk -/
  absolute : isAbsolute root.directory = true
  /-- there is no backslash in it -/
  backslash : '\\' ∉ root.directory.toList
  /-- it leads to the place -/
  found : d.locate true root.directory = .ok origin
  /-- where a directory stands -/
  isDirectory : d.lookup origin = some .directory
  /-- the names of the files are plain -/
  plain : ∀ names bytes, d.lookup (origin ++ names) = some (.file bytes) →
    ¬aside (origin ++ names) →
    ∀ name ∈ names, '\\' ∉ name.toList ∧ ':' ∉ name.toList

/-- Whether a walk of a root at `origin` sees a file of these names: every place on the way is
passed. -/
def sees (skips : Skips) (root : Root) (origin : Place) (names : List String) : Bool :=
  passes skips root root.directory origin names false &&
    (onTheWay names).all fun way => passes skips root root.directory origin way true

/-- A walk of a root at `origin` finds a file of these names. -/
structure Finds (d : Disk) (skips : Skips) (root : Root) (origin : Place) (names : List String)
    (bytes : ByteArray) : Prop where
  /-- it lies below the root -/
  ne_nil : names ≠ []
  /-- it is a file -/
  file : d.lookup (origin ++ names) = some (.file bytes)
  /-- it is seen -/
  sees : sees skips root origin names = true

/-- What a walk reports about the file of these names. -/
def reachedAt (root : Root) (names : List String) : Reached :=
  ⟨pathBelow root.directory names, ofComponents names, false, names.length⟩

namespace Rooted

variable {aside : Place → Prop}

/-- The path of names below the root leads to the place of these names, unless a link stands there.
-/
theorem locate_pathBelow (h : d.Rooted root origin aside) {entry : Entry}
    (hentry : d.lookup (origin ++ names) = some entry) (hlink : ∀ target, entry ≠ .link target) :
    d.locate true (pathBelow root.directory names) = .ok (origin ++ names) :=
  h.sound.locate_pathBelow h.found hentry hlink

/-- The bytes of a file are read at its path. -/
theorem read_pathBelow (h : d.Rooted root origin aside) {bytes : ByteArray}
    (hfile : d.lookup (origin ++ names) = some (.file bytes)) :
    d.read (pathBelow root.directory names) = .ok bytes := by
  have hlocate := h.locate_pathBelow hfile fun target hlink => by cases hlink
  exact read_eq_ok_iff.mpr ⟨_, hlocate, hfile⟩

/-- A file is found at its path. -/
theorem isFile_pathBelow (h : d.Rooted root origin aside) {bytes : ByteArray}
    (hfile : d.lookup (origin ++ names) = some (.file bytes)) :
    d.isFile (pathBelow root.directory names) = true := by
  have hlocate := h.locate_pathBelow hfile fun target hlink => by cases hlink
  exact isFile_iff.mpr ⟨_, bytes, hlocate, hfile⟩

/-- The name of a file under the root is its names, joined. -/
theorem relative_pathBelow (h : d.Rooted root origin aside) {bytes : ByteArray} (hne : names ≠ [])
    (hfile : d.lookup (origin ++ names) = some (.file bytes)) (hseen : ¬aside (origin ++ names)) :
    root.relative (pathBelow root.directory names) = .ok (ofComponents names) :=
  Path.relative_pathBelow h.absolute h.backslash hne (h.sound.isName origin (by rw [hfile]; rfl))
    fun name hname => (h.plain names bytes hfile hseen name hname).1

end Rooted

/-! ## What a walk finds -/

section Walk

variable {aside : Place → Prop}

/-- The places aside are not taken in by the root. -/
def Unseen (root : Root) (origin : Place) (aside : Place → Prop) : Prop :=
  ∀ names, names ≠ [] → aside (origin ++ names) →
    takesIn root (pathBelow root.directory names) = false

/-- What is seen is not aside. -/
theorem Unseen.not_aside (h : Unseen root origin aside) (hne : names ≠ []) {skips : Skips}
    (hsees : sees skips root origin names = true) : ¬aside (origin ++ names) := by
  intro haside
  rw [sees, passes, h names hne haside] at hsees
  simp at hsees

/-- What lies in an excluded directory is not taken in. -/
theorem takesIn_of_excluded (habsolute : isAbsolute root.directory = true)
    (hbackslash : '\\' ∉ root.directory.toList) {name : String} (hne : names ≠ [])
    (hnames : ∀ n ∈ names ++ [name], IsName n ∧ '\\' ∉ n.toList)
    (hexcluded : ofComponents names ∈ root.excluded) :
    takesIn root (pathBelow root.directory (names ++ [name])) = false := by
  have hne' : names ++ [name] ≠ [] := List.append_ne_nil_of_left_ne_nil hne _
  have hrelative := Path.relative_pathBelow habsolute hbackslash hne' (fun n hn => (hnames n hn).1)
    fun n hn => (hnames n hn).2
  have hdot : ofComponents (names ++ [name]) ≠ "." := by
    intro heq
    have hsplit := splitOn_ofComponents hne' fun n hn => (hnames n hn).1
    rw [heq, show Text.splitOn '/' "." = ["."] by decide] at hsplit
    exact (hnames "." (hsplit ▸ List.mem_singleton.mpr rfl)).1.ne_dot rfl
  simp [takesIn, hrelative, hdot, isIgnored_of_excluded hne (fun n hn => (hnames n hn).1) hexcluded]

/-- What a walk reports about a place, by what stands there. -/
def reportedAt (skips : Skips) (root : Root) (origin : Place) (names : List String) :
    Option Entry → Option Reached
  | some (.file _) => if sees skips root origin names then some (reachedAt root names) else none
  | _ => none

/-- A walk reports about the files that it sees. -/
theorem reportedAt_eq_some {skips : Skips} {what : Option Entry} {found : Reached} :
    reportedAt skips root origin names what = some found ↔
      ∃ bytes, what = some (.file bytes) ∧ sees skips root origin names = true ∧
        found = reachedAt root names := by
  rcases what with _ | bytes | - | target
  · simp [reportedAt]
  · simp [reportedAt, eq_comm (a := found)]
  · simp [reportedAt]
  · simp [reportedAt]

/-- A walk reports about the places below the root. -/
theorem bind_reached?_append (h : d.Rooted root origin aside) (hunseen : Unseen root origin aside)
    (hne : names ≠ []) (skips : Skips) :
    (d.entries[origin ++ names]?.bind fun entry =>
        d.reached? skips root {} root.directory origin (origin ++ names) entry) =
      reportedAt skips root origin names (d.lookup (origin ++ names)) := by
  have hbelow : (origin.isPrefixOf (origin ++ names) && decide
      ((origin ++ names).length ≠ origin.length)) = true := by
    simp [hne]
  rw [getElem?_entries (List.append_ne_nil_of_right_ne_nil _ hne)]
  cases hentry : d.lookup (origin ++ names) with
  | none => rfl
  | some entry =>
    rw [Option.bind_some, reached?, if_pos hbelow, List.drop_left]
    cases entry with
    | directory => simp [report?, reportedAt]
    | link target => simp [report?, reportedAt]
    | file bytes =>
      simp only [h.sound.goesThrough_eq hentry, Option.all_none, Bool.true_and, reportedAt]
      change (if sees skips root origin names = true then _ else _) = _
      split_ifs with hsees
      · rw [report?, h.relative_pathBelow hne hentry (hunseen.not_aside hne hsees)]
        rfl
      · rfl

/-- A walk reports about no other place. -/
theorem reached?_eq_none {place : Place} (h : ∀ names, names ≠ [] → place ≠ origin ++ names)
    (skips : Skips) (start : String) (entry : Entry) :
    d.reached? skips root {} start origin place entry = none := by
  rw [reached?, if_neg]
  rw [Bool.and_eq_true, List.isPrefixOf_iff_prefix, decide_eq_true_eq]
  rintro ⟨⟨names, rfl⟩, hlength⟩
  refine h names ?_ rfl
  rintro rfl
  simp at hlength

/-- **What a walk finds**: the files below the root that it sees. -/
theorem mem_walk (h : d.Rooted root origin aside) (hunseen : Unseen root origin aside)
    {skips : Skips} {found : Reached} :
    found ∈ d.walk skips root {} ↔ ∃ names bytes, d.Finds skips root origin names bytes ∧
      found = reachedAt root names := by
  rw [walk_of_locate skips h.found h.isDirectory, List.mem_mergeSort, List.mem_filterMap]
  constructor
  · rintro ⟨⟨place, entry⟩, hmem, hreached⟩
    rw [Std.TreeMap.mem_toList_iff_getElem?_eq_some] at hmem
    by_cases hplace : ∃ names, names ≠ [] ∧ place = origin ++ names
    · obtain ⟨names, hne, rfl⟩ := hplace
      have hreported := bind_reached?_append h hunseen hne skips
      rw [hmem, Option.bind_some] at hreported
      obtain ⟨bytes, hfile, hsees, hfound⟩ := reportedAt_eq_some.mp (hreported.symm.trans hreached)
      exact ⟨names, bytes, ⟨hne, hfile, hsees⟩, hfound⟩
    · simp only [not_exists, not_and] at hplace
      exact absurd ((reached?_eq_none hplace _ _ entry).symm.trans hreached) nofun
  · rintro ⟨names, bytes, hfinds, hfound⟩
    have hentry :=
      getElem?_entries (d := d) (List.append_ne_nil_of_right_ne_nil origin hfinds.ne_nil)
    refine ⟨(origin ++ names, .file bytes), ?_, ?_⟩
    · rw [Std.TreeMap.mem_toList_iff_getElem?_eq_some, hentry, hfinds.file]
    · have hreported := bind_reached?_append h hunseen hfinds.ne_nil skips
      rw [hentry, hfinds.file, Option.bind_some] at hreported
      exact hreported.trans (reportedAt_eq_some.mpr ⟨bytes, rfl, hfinds.sees, hfound⟩)

/-- The two disks hold the same files below `origin`, apart from those aside. -/
def SameFiles (origin : Place) (aside : Place → Prop) (d d' : Disk) : Prop :=
  ∀ names bytes, ¬aside (origin ++ names) →
    (d'.lookup (origin ++ names) = some (.file bytes) ↔
      d.lookup (origin ++ names) = some (.file bytes))

/-- **A walk finds the same** under the same verdict among the same files. -/
theorem walk_congr (h : d.Rooted root origin aside) (h' : d'.Rooted root origin aside)
    (hunseen : Unseen root origin aside) (skips : Skips) (hfiles : SameFiles origin aside d d') :
    d'.walk skips root {} = d.walk skips root {} := by
  rw [walk_of_locate skips h.found h.isDirectory, walk_of_locate skips h'.found h'.isDirectory]
  congr 1
  refine filterMap_entries_congr fun place => ?_
  by_cases hplace : ∃ names, names ≠ [] ∧ place = origin ++ names
  · obtain ⟨names, hne, rfl⟩ := hplace
    simp only [bind_reached?_append h hunseen hne, bind_reached?_append h' hunseen hne]
    refine Option.ext fun found => ?_
    rw [reportedAt_eq_some, reportedAt_eq_some]
    refine exists_congr fun bytes => and_congr_left fun hsees => ?_
    exact hfiles names bytes (hunseen.not_aside hne hsees.1)
  -- nothing is reported from outside the root
  · simp only [not_exists, not_and] at hplace
    simp only [reached?_eq_none hplace, Option.bind_fun_none]

end Walk

/-! ## Rules

Rules are read from files, which the directories tell. So they stay the same when files change from
which no rules are read. -/

/-- The rules are read from the files at these paths, where the directories of a disk are given. -/
def ReadFrom (rules : SkipRules) (paths : List Place → List String) : Prop :=
  ∀ d d', directories d' = directories d →
    (∀ path ∈ paths (directories d), (d'.read path).toOption = (d.read path).toOption) →
    rules d' = rules d

/-- What is read at a path depends on what stands where the path leads. -/
theorem read_congr (hways : d.SameWays d') {path : String}
    (h : ∀ place, d.locate true path = .ok place → d'.lookup place = d.lookup place) :
    (d'.read path).toOption = (d.read path).toOption := by
  rw [read, read, find, find]
  cases hlocate : d.locate true path with
  | ok place =>
    rw [hways.locate_iff.mp hlocate]
    simp only [h place hlocate]
  | error e =>
    cases hlocate' : d'.locate true path with
    | ok place =>
      rw [hways.locate_iff.mpr hlocate'] at hlocate
      cases hlocate
    | error e' => rfl

/-- The directories of a disk are the places where directories stand. -/
theorem directories_congr (hways : d.SameWays d')
    (htop : d'.entries[([] : Place)]? = d.entries[([] : Place)]?) :
    directories d' = directories d := by
  rw [directories, directories]
  congr 1
  refine filterMap_entries_congr fun place => ?_
  by_cases hplace : place = []
  · rw [hplace, htop]
  · rw [getElem?_entries hplace, getElem?_entries hplace]
    rcases hways place with hsame | ⟨hdead, hdead'⟩
    · rw [hsame]
    · -- neither disk has a directory there
      revert hdead hdead'
      rcases d.lookup place with _ | bytes | - | target <;>
        rcases d'.lookup place with _ | bytes' | - | target' <;> intro hdead hdead'
      all_goals first | rfl | exact hdead.elim | exact hdead'.elim

/-- On a disk without links a rule file lies in a directory under its own name. -/
theorem exists_of_locate_rule (hlinks : ∀ p target, d.lookup p ≠ some (.link target))
    {name : String} (hname : name ∈ ruleFiles) {place p : Place}
    (h : d.locate true (absoluteOf (place ++ [name])) = .ok p) :
    ∃ front last, p = front ++ [last] ∧ last ∈ [".ignore", ".gitignore", "exclude"] := by
  have hlast : ∃ before last, Text.splitOn '/' name = before ++ [last] ∧ IsName last ∧
      last ∈ [".ignore", ".gitignore", "exclude"] := by
    rcases (by simpa [ruleFiles] using hname : name = ".ignore" ∨ name = ".gitignore" ∨
      name = ".git/info/exclude") with rfl | rfl | rfl
    · exact ⟨[], ".ignore", by decide, ⟨by decide, by decide, by decide, by decide⟩, by decide⟩
    · exact ⟨[], ".gitignore", by decide, ⟨by decide, by decide, by decide, by decide⟩, by decide⟩
    · exact ⟨[".git", "info"], "exclude", by decide, ⟨by decide, by decide, by decide, by decide⟩,
        by decide⟩
  obtain ⟨before, last, hsplit, hisName, hmem⟩ := hlast
  obtain ⟨more, hmore⟩ := splitOn_absoluteOf place name
  rw [locate_iff_leads, hmore, hsplit, ← List.append_assoc] at h
  obtain ⟨front, hfront⟩ := h.eq_concat_of_name hisName hlinks
  exact ⟨front, last, hfront, hmem⟩

/-- The paths of the rule files in some directories. -/
def rulePaths (places : List Place) : List String :=
  places.flatMap fun place => ruleFiles.map fun name => absoluteOf (place ++ [name])

/-- **The rules are the same** while nothing changes in the files that hold them. -/
theorem readFrom_skipRules : ReadFrom skipRules rulePaths := by
  intro d d' hdirectories hread
  have hbook : RuleBook.ofDisk d' = RuleBook.ofDisk d := by
    refine List.map_congr_left fun name hname => ?_
    rw [RuleTable.ofDisk, RuleTable.ofDisk, hdirectories]
    refine List.filterMap_congr fun place hplace => ?_
    have hsame := hread (absoluteOf (place ++ [name]))
      (List.mem_flatMap.mpr ⟨place, hplace, List.mem_map_of_mem hname⟩)
    revert hsame
    rcases d.read (absoluteOf (place ++ [name])) with e | bytes <;>
      rcases d'.read (absoluteOf (place ++ [name])) with e' | bytes' <;> intro hsame <;>
        cases hsame <;> rfl
  rw [skipRules, skipRules, hbook]

end CodeAtlas.Disk
