import CodeAtlas.Proofs.Index.Refresh
import CodeAtlas.Proofs.Path.Ignored
import CodeAtlas.Tracker.Basic

/-!
# The walk and the tracker take in the same files

Setup: a walk looks at every directory on the way to a file, and leaves out what lies below one that
it does not pass. The tracker is told only the path of the file. Both ask the root whether it takes
in a path (`Disk.takesIn`), and as what is ignored is ignored with everything below, the one look at
the file says as much as all the looks on the way (`Disk.takesIn_of_append`). What the rules of the
disk skip (`Disk.FreeOfRules`) is known to the walk only.

* **`walk_agrees_with_tracker`** — ignored places are closed under going down, and the walk finds
  the files that the tracker accepts.
-/

namespace CodeAtlas

open CodeAtlas.Path CodeAtlas.Ignore

namespace Disk

variable {d : Disk} {root : Root} {origin : Place} {names more way : List String} {path : String}
  {bytes : ByteArray} {skips : Skips}

/-- No rule skips a file of these names, nor a directory on the way to it. -/
def FreeOfRules (skips : Skips) (origin : Place) (names : List String) : Prop :=
  skips (origin ++ names) false = false ∧
    ∀ way ∈ onTheWay names, skips (origin ++ way) true = false

/-- What is on the way to names are initial parts of them. -/
theorem prefix_of_mem_onTheWay (h : way ∈ onTheWay names) : way ≠ [] ∧ way <+: names := by
  obtain ⟨n, hn, rfl⟩ := List.mem_map.mp h
  have hn := List.mem_range.mp hn
  refine ⟨?_, List.take_prefix _ _⟩
  rw [Ne, List.take_eq_nil_iff]
  rintro (h | rfl)
  · omega
  · simp at hn

/-- **What a root takes in**: the components of the names, backslashes counted as slashes, lead
nowhere up, and what they name is not ignored, unless it is the root. -/
theorem takesIn_pathBelow_iff (habsolute : isAbsolute root.directory = true) (hne : names ≠ [])
    (hnames : ∀ n ∈ names, IsName n) :
    takesIn root (pathBelow root.directory names) = true ↔
      ".." ∉ components (slashed (ofComponents names)) ∧
        (components (slashed (ofComponents names)) ≠ [] →
          root.isIgnored (ofComponents (components (slashed (ofComponents names)))) = false) := by
  rw [takesIn, pathBelow_eq _ hne hnames,
    Root.relative_join habsolute (isAbsolute_ofComponents hnames)]
  split_ifs with hup
  · simp [hup]
  · have hparts : ∀ n ∈ components (slashed (ofComponents names)), IsName n :=
      fun n hn => isName_of_mem_components hn fun h => hup (h ▸ hn)
    generalize components (slashed (ofComponents names)) = parts at hup hparts ⊢
    by_cases hempty : parts = []
    · simp [hempty, Root.nameOf]
    · have hdot : ofComponents parts ≠ "." := fun h => not_lies_dot hempty hparts (.inl h.symm)
      simp [Root.nameOf, hempty, hdot, hup]

/-- The components of names put together, backslashes counted as slashes. -/
theorem components_slashed_append (hne : names ≠ []) (hmore : more ≠ []) :
    components (slashed (ofComponents (names ++ more))) =
      components (slashed (ofComponents names)) ++ components (slashed (ofComponents more)) := by
  have htext : slashed (ofComponents (names ++ more)) = String.ofList
      ((slashed (ofComponents names)).toList ++ '/' :: (slashed (ofComponents more)).toList) := by
    refine String.toList_inj.mp ?_
    rw [ofComponents_append hne hmore]
    simp [slashed, String.toList_map]
  rw [htext, components_append_cons, String.ofList_toList, String.ofList_toList]

/-- **The directories on the way are taken in** if what lies in them is. -/
theorem takesIn_of_append (habsolute : isAbsolute root.directory = true) (hne : names ≠ [])
    (hnames : ∀ n ∈ names ++ more, IsName n)
    (h : takesIn root (pathBelow root.directory (names ++ more)) = true) :
    takesIn root (pathBelow root.directory names) = true := by
  by_cases hmore : more = []
  · rwa [hmore, List.append_nil] at h
  · rw [takesIn_pathBelow_iff habsolute (List.append_ne_nil_of_left_ne_nil hne _) hnames,
      components_slashed_append hne hmore] at h
    obtain ⟨hup, hignored⟩ := h
    have hparts :
        ∀ n ∈ components (slashed (ofComponents names)) ++ components (slashed (ofComponents more)),
        IsName n := by
      intro n hn
      have hdots : n ≠ ".." := fun h => hup (h ▸ hn)
      exact (List.mem_append.mp hn).elim (isName_of_mem_components · hdots)
        (isName_of_mem_components · hdots)
    rw [takesIn_pathBelow_iff habsolute hne fun n hn => hnames n (List.mem_append_left _ hn)]
    refine ⟨fun h => hup (List.mem_append_left _ h), fun hsome => Bool.eq_false_iff.mpr fun h => ?_⟩
    rw [Root.isIgnored_append hsome hparts h] at hignored
    cases hignored (List.append_ne_nil_of_left_ne_nil hsome _)

/-- A walk sees a file if no rule skips it and the root takes in its path. -/
theorem sees_iff (habsolute : isAbsolute root.directory = true) (hnames : ∀ n ∈ names, IsName n) :
    sees skips root origin names = true ↔
      FreeOfRules skips origin names ∧ takesIn root (pathBelow root.directory names) = true := by
  simp only [sees, passes, FreeOfRules, Bool.and_eq_true, Bool.not_eq_true', List.all_eq_true]
  constructor
  · rintro ⟨⟨hfile, htakes⟩, hways⟩
    exact ⟨⟨hfile, fun way hway => (hways way hway).1⟩, htakes⟩
  · rintro ⟨⟨hfile, hways⟩, htakes⟩
    refine ⟨⟨hfile, htakes⟩, fun way hway => ⟨hways way hway, ?_⟩⟩
    obtain ⟨hne, more, rfl⟩ := prefix_of_mem_onTheWay hway
    exact takesIn_of_append habsolute hne hnames htakes

/-- A walk of files reports about files only. -/
theorem isFile_of_reached? {start : String} {place : Place} {entry : Entry} {found : Reached}
    (h : d.reached? skips root {} start origin place entry = some found) :
    ∃ bytes, entry = .file bytes := by
  cases entry with
  | file bytes => exact ⟨bytes, rfl⟩
  | directory => simp [reached?, report?] at h
  | link target => simp [reached?, report?] at h

/-- A path that is taken in has a name. -/
theorem relative_of_takesIn (h : takesIn root path = true) :
    ∃ name, root.relative path = .ok name := by
  rw [takesIn] at h
  split at h
  · next name hname => exact ⟨name, hname⟩
  · cases h

/-- A walk reports about a file if it sees it. -/
theorem exists_reached?_iff (skips : Skips) (hd : d.Sound)
    (habsolute : isAbsolute root.directory = true)
    (hne : names ≠ []) (hfile : d.lookup (origin ++ names) = some (.file bytes)) :
    (∃ found, d.reached? skips root {} root.directory origin (origin ++ names) (.file bytes) =
      some found ∧
        found.path = path) ↔
      path = pathBelow root.directory names ∧ FreeOfRules skips origin names ∧
        takesIn root path = true := by
  have hnames : ∀ n ∈ names, IsName n := hd.isName origin (by rw [hfile]; rfl)
  have hbelow : (origin.isPrefixOf (origin ++ names) && decide
      ((origin ++ names).length ≠ origin.length)) = true := by
    simp [hne]
  have hreached : d.reached? skips root {} root.directory origin (origin ++ names) (.file bytes) =
      if sees skips root origin names = true then
        report? root {} root.directory names (.file bytes) else none := by
    rw [reached?, if_pos hbelow, List.drop_left]
    simp only [hd.goesThrough_eq hfile, Option.all_none, Bool.true_and]
    rfl
  rw [hreached]
  constructor
  · rintro ⟨found, h, rfl⟩
    split_ifs at h with hsees
    obtain ⟨name, -, rfl⟩ := Option.map_eq_some_iff.mp h
    exact ⟨rfl, (sees_iff habsolute hnames).mp hsees⟩
  · rintro ⟨rfl, hfree, htakes⟩
    obtain ⟨name, hname⟩ := relative_of_takesIn htakes
    refine ⟨⟨pathBelow root.directory names, name, false, names.length⟩, ?_, rfl⟩
    rw [if_pos ((sees_iff habsolute hnames).mpr ⟨hfree, htakes⟩), report?, hname]
    rfl

/-- **What a walk reaches**: the files that no rule skips and whose paths the root takes in. -/
theorem mem_walk_iff (hd : d.Sound) (habsolute : isAbsolute root.directory = true)
    (hfound : d.locate true root.directory = .ok origin)
    (hdirectory : d.lookup origin = some .directory) :
    (∃ found ∈ d.walk skips root {}, found.path = path) ↔
      ∃ names bytes, names ≠ [] ∧ d.lookup (origin ++ names) = some (.file bytes) ∧
        path = pathBelow root.directory names ∧ FreeOfRules skips origin names ∧
        takesIn root path = true := by
  rw [walk_of_locate skips hfound hdirectory]
  simp only [List.mem_mergeSort, List.mem_filterMap]
  constructor
  · rintro ⟨found, ⟨⟨place, entry⟩, hmem, hreached⟩, hpath⟩
    rw [Std.TreeMap.mem_toList_iff_getElem?_eq_some] at hmem
    by_cases hplace : ∃ names, names ≠ [] ∧ place = origin ++ names
    · obtain ⟨names, hne, rfl⟩ := hplace
      rw [getElem?_entries (List.append_ne_nil_of_right_ne_nil _ hne)] at hmem
      obtain ⟨bytes, rfl⟩ := isFile_of_reached? hreached
      obtain ⟨hpath, hfree, htakes⟩ :=
        (exists_reached?_iff _ hd habsolute hne hmem).mp ⟨found, hreached, hpath⟩
      exact ⟨names, bytes, hne, hmem, hpath, hfree, htakes⟩
    · simp only [not_exists, not_and] at hplace
      exact absurd ((reached?_eq_none hplace _ _ entry).symm.trans hreached) nofun
  · rintro ⟨names, bytes, hne, hfile, hpath, hfree, htakes⟩
    obtain ⟨found, hreached, hpath⟩ :=
      (exists_reached?_iff skips hd habsolute hne hfile).mpr ⟨hpath, hfree, htakes⟩
    refine ⟨found, ⟨(origin ++ names, .file bytes), ?_, hreached⟩, hpath⟩
    rw [Std.TreeMap.mem_toList_iff_getElem?_eq_some,
      getElem?_entries (List.append_ne_nil_of_right_ne_nil _ hne), hfile]

end Disk

/-- Names without backslashes are the components of themselves put together. -/
theorem components_slashed_ofComponents {names : List String} (hne : names ≠ [])
    (hnames : ∀ n ∈ names, IsName n) (hbackslash : ∀ n ∈ names, '\\' ∉ n.toList) :
    components (slashed (ofComponents names)) = names := by
  have hname : Root.nameOf names = ofComponents names := by
    rw [Root.nameOf, if_neg (by simpa using hne)]
  rw [← hname, slashed_eq (backslash_notMem_nameOf hbackslash), components_nameOf hnames]

/-- A root takes in the path of names without backslashes if they are not ignored. -/
theorem takesIn_iff_isIgnored {root : Root} {names : List String}
    (habsolute : isAbsolute root.directory = true)
    (hne : names ≠ []) (hnames : ∀ n ∈ names, IsName n)
    (hbackslash : ∀ n ∈ names, '\\' ∉ n.toList) :
    Disk.takesIn root (Disk.pathBelow root.directory names) = true ↔
      root.isIgnored (ofComponents names) = false := by
  have hup : ".." ∉ names := fun h => (hnames _ h).ne_dots rfl
  rw [Disk.takesIn_pathBelow_iff habsolute hne hnames,
    components_slashed_ofComponents hne hnames hbackslash]
  simp [hup, hne]

/-- **What the tracker remembers** of a file whose names have no backslash: its name, unless it is
ignored. -/
theorem acceptedName?_pathBelow {d : Disk} {root : Root} {origin : Place} {names : List String}
    {bytes : ByteArray} (hd : d.Sound) (habsolute : isAbsolute root.directory = true)
    (hfound : d.locate true root.directory = .ok origin) (hne : names ≠ [])
    (hfile : d.lookup (origin ++ names) = some (.file bytes))
    (hbackslash : ∀ n ∈ names, '\\' ∉ n.toList) :
    acceptedName? root d (Disk.pathBelow root.directory names) =
      if root.isIgnored (ofComponents names) then none else some (ofComponents names) := by
  have hnames : ∀ n ∈ names, IsName n := hd.isName origin (by rw [hfile]; rfl)
  have hcomponents := components_slashed_ofComponents hne hnames hbackslash
  have hup : ".." ∉ names := fun h => (hnames _ h).ne_dots rfl
  have hdot : ofComponents names ≠ "." := fun h => not_lies_dot hne hnames (.inl h.symm)
  have hempty : ofComponents names ≠ "" := by
    intro h
    rw [h, slashed_eq (by decide)] at hcomponents
    exact hne (hcomponents.symm.trans (by decide))
  have hplace := hd.locate_pathBelow hfound hfile fun target => nofun
  have hdirectory : d.isDirectory (root.absolute (ofComponents names)) = false := by
    rw [Root.absolute, ← pathBelow_eq _ hne hnames, Disk.isDirectory,
      Disk.find_eq_ok_iff.mpr ⟨_, hplace, hfile⟩]
  have hname : root.relative (Disk.pathBelow root.directory names) = .ok (ofComponents names) := by
    rw [pathBelow_eq _ hne hnames, Root.relative_join habsolute (isAbsolute_ofComponents hnames),
      hcomponents, if_neg hup, Root.nameOf, if_neg (by simpa using hne)]
  rw [acceptedName?, hname]
  simp only [hdot, hempty, hdirectory, decide_false, Bool.false_or, Bool.or_false]

/-- **A walk and the tracker take in the same files.** A name is ignored exactly if it or a
directory on the way to it is; the root itself, which neither asks about, is none of them. So a walk
finds exactly the files that no rule skips and whose own path is taken in, and the tracker accepts
these and no others where the names have no backslash. -/
theorem walk_agrees_with_tracker (root : Root) :
    (∀ names, names ≠ [] → (∀ n ∈ names, IsName n) →
      (root.isIgnored (ofComponents names) = true ↔
        ∃ way, way ≠ [] ∧ way <+: names ∧ root.isIgnored (ofComponents way) = true) ∧
      ∀ more, (∀ n ∈ more, IsName n) → root.isIgnored (ofComponents names) = true →
        root.isIgnored (ofComponents (names ++ more)) = true) ∧
    ∀ (d : Disk) (skips : Skips) (origin : Place), d.Sound → isAbsolute root.directory = true →
      d.locate true root.directory = .ok origin → d.lookup origin = some .directory →
      (∀ path, (∃ found ∈ d.walk skips root {}, found.path = path) ↔
        ∃ names bytes, names ≠ [] ∧ d.lookup (origin ++ names) = some (.file bytes) ∧
          path = Disk.pathBelow root.directory names ∧ Disk.FreeOfRules skips origin names ∧
          Disk.takesIn root path = true) ∧
      ∀ names bytes, names ≠ [] → d.lookup (origin ++ names) = some (.file bytes) →
        (∀ n ∈ names, '\\' ∉ n.toList) → Disk.FreeOfRules skips origin names →
        ((∃ found ∈ d.walk skips root {}, found.path = Disk.pathBelow root.directory names) ↔
          acceptedName? root d (Disk.pathBelow root.directory names) =
            some (ofComponents names)) := by
  refine ⟨fun names hne hnames => ⟨Root.isIgnored_iff_way hne hnames, fun more hmore h => ?_⟩,
    fun d skips origin hd habsolute hfound hdirectory => ⟨fun path => ?_, ?_⟩⟩
  · exact Root.isIgnored_append hne (fun n hn => (List.mem_append.mp hn).elim (hnames n) (hmore n))
      h
  · exact Disk.mem_walk_iff hd habsolute hfound hdirectory
  · intro names bytes hne hfile hbackslash hfree
    have hnames : ∀ n ∈ names, IsName n := hd.isName origin (by rw [hfile]; rfl)
    rw [Disk.mem_walk_iff hd habsolute hfound hdirectory,
      acceptedName?_pathBelow hd habsolute hfound hne hfile hbackslash]
    have htakes := takesIn_iff_isIgnored habsolute hne hnames hbackslash
    constructor
    · rintro ⟨names', bytes', -, -, -, -, h⟩
      rw [if_neg (by simp [htakes.mp h])]
    · intro h
      split_ifs at h with hignored
      exact ⟨names, bytes, hne, hfile, rfl, hfree, htakes.mpr (by simpa using hignored)⟩

/-- A repository with two notes, where one kind of directory is ignored wherever it is. -/
theorem walk_agrees_with_tracker_notes :
    let root : Root := ⟨"/repo", [["node_modules"]], []⟩
    let d := noteDisk "note"
    let path := Disk.pathBelow root.directory ["notes.md"]
    root.isIgnored (ofComponents ["web", "node_modules", "x.js"]) = true ∧
      (∃ found ∈ d.walk (skipRules d) root {}, found.path = path) ∧
      acceptedName? root d path = some (ofComponents ["notes.md"]) := by
  intro root d path
  have hrooted := rooted_noteDisk (fun _ => #[]) "note"
  have habsolute : isAbsolute root.directory = true := hrooted.absolute
  have hfound : d.locate true root.directory = .ok ["repo"] := hrooted.found
  have hfile : d.lookup (["repo"] ++ ["notes.md"]) = some (.file "note".toUTF8) :=
    file_iff_notes.mpr (.inl ⟨rfl, rfl⟩)
  have hbackslash : ∀ n ∈ ["notes.md"], '\\' ∉ n.toList := by decide
  have hfree : Disk.FreeOfRules (skipRules d) ["repo"] ["notes.md"] :=
    ⟨skips_noteDisk .., fun way _ => skips_noteDisk ..⟩
  obtain ⟨hclosed, hdisk⟩ := walk_agrees_with_tracker root
  obtain ⟨-, hagree⟩ :=
    hdisk d (skipRules d) ["repo"] hrooted.sound habsolute hfound hrooted.isDirectory
  have haccepted : acceptedName? root d path = some (ofComponents ["notes.md"]) := by
    rw [acceptedName?_pathBelow hrooted.sound habsolute hfound (List.cons_ne_nil _ _) hfile
      hbackslash, if_neg (by decide)]
  refine ⟨?_, (hagree _ _ (List.cons_ne_nil _ _) hfile hbackslash hfree).mpr haccepted, haccepted⟩
  have hnames : ∀ n ∈ ["web", "node_modules", "x.js"], IsName n := by
    rw [← show components "web/node_modules/x.js" = ["web", "node_modules", "x.js"] by decide]
    exact fun n hn => isName_of_mem_components hn fun h => absurd (h ▸ hn) (by decide)
  -- the directory on the way is ignored
  exact ((hclosed _ (List.cons_ne_nil _ _) hnames).1).mpr
    ⟨["web", "node_modules"], by decide, by decide, by decide⟩

end CodeAtlas
