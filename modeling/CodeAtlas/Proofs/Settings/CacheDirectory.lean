import CodeAtlas.Proofs.Path.Location
import CodeAtlas.Settings.Environment
import CodeAtlas.Tracker.Basic

/-!
# Which cache directories are skipped

Setup: settings are read from an environment, and the cache directory lies below the base directory
once `.` and `..` are taken out of its path. **`Settings.cacheDirectory_ignored_iff`** says for
which values of the variable it is skipped whatever else is skipped, so that neither a walk nor the
tracker meets what is written there: a relative value without `..`, and an absolute one that goes on
from the text of the base directory. Any other spelling of the same directory is not excluded at all
(`Settings.cacheDirectory_ignored_iff_dots`).
-/

namespace CodeAtlas

open CodeAtlas.Path CodeAtlas.Text

/-! ## What meets no ignored name -/

namespace Disk

variable {d : Disk} {skips : Skips} {root : Root} {o : WalkOptions} {found : Reached}

/-- What a walk reports has the name of its path. -/
theorem relative_of_report? {start : String} {names : List String} {entry : Entry}
    (h : report? root o start names entry = some found) :
    root.relative (pathBelow start names) = .ok found.name := by
  have hname (isDirectory : Bool)
      (hfound : (root.relative (pathBelow start names)).toOption.map (fun name =>
      (⟨pathBelow start names, name, isDirectory, names.length⟩ : Reached)) = some found) :
      root.relative (pathBelow start names) = .ok found.name := by
    cases hrelative : root.relative (pathBelow start names) with
    | error e => simp [hrelative, Except.toOption] at hfound
    | ok name =>
      simp only [hrelative, Except.toOption, Option.map_some, Option.some.injEq] at hfound
      rw [← hfound]
  cases entry with
  | file bytes => exact hname false h
  | directory =>
    simp only [report?] at h
    split_ifs at h
    exact hname true h
  | link target => cases h

/-- A walk reports no ignored name, other than that of the root. -/
theorem isIgnored_of_mem_walk (h : found ∈ d.walk skips root o) :
    found.name = "." ∨ root.isIgnored found.name = false := by
  rw [walk] at h
  split at h
  · cases h
  · next origin _ =>
    split_ifs at h
    · cases h
    · rw [List.mem_mergeSort, List.mem_filterMap] at h
      obtain ⟨⟨place, entry⟩, -, hfound⟩ := h
      simp only [reached?] at hfound
      split_ifs at hfound with _ hpasses
      simp only [passes, Bool.and_eq_true] at hpasses
      have htakes := hpasses.1.2.2
      rw [takesIn, relative_of_report? hfound] at htakes
      simpa using htakes

end Disk

/-- The tracker remembers no ignored name. -/
theorem isIgnored_of_acceptedName? {root : Root} {d : Disk} {path name : String}
    (h : acceptedName? root d path = some name) : root.isIgnored name = false := by
  rw [acceptedName?] at h
  split at h
  · cases h
  · split_ifs at h with hskipped
    cases h
    simp only [Bool.or_eq_true, not_or] at hskipped
    simpa using hskipped.1.2

namespace Settings

/-! ## The two directories -/

/-- The base directory is a place of the disk. -/
theorem exists_of_baseDirectory {e : Environment} {d : Disk} {base : String}
    (h : e.baseDirectory d = .ok base) : ∃ place, base = absoluteOf place := by
  rw [Environment.baseDirectory] at h
  split at h
  · cases h
  · dsimp only at h
    split at h
    · cases h
    · next place _ =>
      split_ifs at h
      cases h
      exact ⟨place, rfl⟩

/-- A run that succeeds ends with a last step that does. -/
theorem of_bind_eq_ok {ε α β : Type} {x : Except ε α} {f : α → Except ε β} {b : β} {p : Prop}
    (h : ∀ a, x = .ok a → f a = .ok b → p) (hb : x >>= f = .ok b) : p := by
  cases hx : x with
  | error e =>
    rw [hx] at hb
    cases hb
  | ok a =>
    rw [hx] at hb
    exact h a hx hb

/-- The cache directory is taken under the base directory. -/
theorem directories_of_ofEnvironment {e : Environment} {d : Disk} {s : Settings}
    (h : ofEnvironment e d = .ok s) : e.baseDirectory d = .ok s.baseDirectory ∧
      s.cacheDirectory = join s.baseDirectory ((e.value? "CACHE_DIR").getD "./.semnav") := by
  revert h
  rw [ofEnvironment]
  refine of_bind_eq_ok fun base hbase => ?_
  rw [hbase]
  -- the other variables have no say in the two directories
  cases e.value? "EMBEDDINGS_BACKEND"
  all_goals
    dsimp only
    repeat refine of_bind_eq_ok fun _ _ => ?_
    intro h
    cases h
    exact ⟨rfl, rfl⟩

/-! ## Spellings -/

/-- The value of the variable spells its directory so that it can be excluded: a relative path
without `..`, or one that goes on behind the text of the base directory and a slash, without `..`
from there on. -/
def Spelled (base value : String) : Prop :=
  if isAbsolute value then
    ∃ rest, (slashed value).toList = dropEndSlashes (slashed base).toList ++ '/' :: rest ∧
      ".." ∉ components (String.ofList rest)
  else ".." ∉ components (slashed value)

variable {base value : String}

/-- **A spelling that can be excluded** goes on from the text of the base directory. -/
theorem continues_join_iff (hbase : isAbsolute base = true) (ignored : List String) :
    (Root.ofDirectory base ignored).Continues (join base value) ↔ Spelled base value := by
  have hspelling : (Root.ofDirectory base ignored).spelling.toList =
      dropEndSlashes (slashed base).toList := String.toList_ofList
  rw [Root.Continues, hspelling, Spelled]
  by_cases hvalue : isAbsolute value = true
  · rw [join, if_pos hvalue, if_pos hvalue]
  · rw [if_neg hvalue]
    obtain ⟨n, hgap⟩ := toList_slashed_append_gap hbase
    have hpath : (slashed (join base value)).toList = dropEndSlashes (slashed base).toList ++
        '/' :: (List.replicate n '/' ++ (slashed value).toList) := by
      rw [toList_slashed_join (by simpa using hvalue), ← List.append_assoc, hgap,
        List.replicate_succ, List.append_assoc, List.cons_append]
    rw [hpath]
    simp only [List.append_cancel_left_eq, List.cons.injEq, true_and, exists_eq_left',
      components_replicate_append, String.ofList_toList]

/-! ## The cache directory -/

/-- **Which cache directories are skipped.** The cache directory lies below the base directory,
under `names`. It is ignored with everything below it, whatever else is, exactly if its value is
spelled so that it can be excluded. Then neither a walk reports a name there nor the tracker
remembers one. -/
theorem cacheDirectory_ignored_iff {e : Environment} {d : Disk} {s : Settings} {names : List String}
    (h : ofEnvironment e d = .ok s) (hne : names ≠ [])
    (hlocation : location s.cacheDirectory = location s.baseDirectory ++ names) :
    ((∀ ignored name, Lies (ofComponents names) name →
        ({ s with ignored := ignored } : Settings).root.isIgnored name = true) ↔
      Spelled s.baseDirectory ((e.value? "CACHE_DIR").getD "./.semnav")) ∧
    (Spelled s.baseDirectory ((e.value? "CACHE_DIR").getD "./.semnav") → ∀ ignored d',
      (∀ skips o, ∀ found ∈ d'.walk skips ({ s with ignored := ignored } : Settings).root o,
        ¬Lies (ofComponents names) found.name) ∧
      ∀ path name, acceptedName? ({ s with ignored := ignored } : Settings).root d' path =
        some name →
        ¬Lies (ofComponents names) name) := by
  obtain ⟨hbase, hcache⟩ := directories_of_ofEnvironment h
  obtain ⟨place, hplace⟩ := exists_of_baseDirectory hbase
  have habsolute : isAbsolute s.baseDirectory = true := by
    rw [hplace]
    simp [isAbsolute, absoluteOf]
  have hexcluding (ignored : List String) := Root.excluded_excluding
    (r := .ofDirectory s.baseDirectory ignored)
    (hcache ▸ isAbsolute_join habsolute _) rfl hne hlocation
  generalize (e.value? "CACHE_DIR").getD "./.semnav" = value at hcache
  have hcontinues (ignored : List String) :
      (Root.ofDirectory s.baseDirectory ignored).Continues s.cacheDirectory ↔
        Spelled s.baseDirectory value := by
    rw [hcache]
    exact continues_join_iff habsolute ignored
  have hignored (hspelled : Spelled s.baseDirectory value) (ignored : List String) (name : String)
      (hlies : Lies (ofComponents names) name) :
      ({ s with ignored := ignored } : Settings).root.isIgnored name = true := by
    obtain ⟨hnames, hroot⟩ := (hexcluding ignored).1 ((hcontinues ignored).mpr hspelled)
    rw [root, hroot]
    exact isIgnored_of_lies hne hnames (List.mem_singleton.mpr rfl) hlies
  refine ⟨⟨fun hall => ?_, hignored⟩,
    fun hspelled ignored d' => ⟨fun skips o found hfound hlies => ?_,
    fun path name hname hlies => ?_⟩⟩
  · -- with nothing else ignored, what is not excluded is not ignored
    by_contra hspelled
    have hroot := (hexcluding []).2 fun h => hspelled ((hcontinues []).mp h)
    have hname := hall [] (ofComponents names) (.inl rfl)
    rw [root, hroot] at hname
    simp [Root.ofDirectory, Root.isIgnored] at hname
  · rcases Disk.isIgnored_of_mem_walk hfound with hdot | hnot
    · exact not_lies_dot hne ((hexcluding ignored).1 ((hcontinues ignored).mpr hspelled)).1
        (hdot ▸ hlies)
    · rw [hignored hspelled ignored _ hlies] at hnot
      cases hnot
  · have hnot := isIgnored_of_acceptedName? hname
    rw [hignored hspelled ignored _ hlies] at hnot
    cases hnot

/-! ## A spelling with dots

The cache directory `nav` is written as `nav/../nav`. -/

/-- The environment. -/
def dottedEnvironment : Environment :=
  ⟨[("BASE_DIR", "/r"), ("CACHE_DIR", "nav/../nav")], "/"⟩

/-- A disk with the base directory. -/
def dottedDisk : Disk :=
  Disk.empty.put ["r"] .directory

/-- The settings are read, and the cache directory is `nav` under the base directory. -/
theorem dotted_settings : ∃ s, ofEnvironment dottedEnvironment dottedDisk = .ok s ∧
    location s.cacheDirectory = location s.baseDirectory ++ ["nav"] := by
  have hbase : dottedEnvironment.baseDirectory dottedDisk = .ok "/r" := by cbv
  have hvalue : dottedEnvironment.value? "CACHE_DIR" = some "nav/../nav" := by cbv
  obtain ⟨s, hs⟩ : ∃ s, ofEnvironment dottedEnvironment dottedDisk = .ok s := by
    rw [ofEnvironment, hbase]
    exact ⟨_, rfl⟩
  obtain ⟨hbase', hcache⟩ := directories_of_ofEnvironment hs
  rw [hbase, Except.ok.injEq] at hbase'
  rw [← hbase', hvalue, Option.getD_some] at hcache
  have hlocation : location (join "/r" "nav/../nav") = location "/r" ++ ["nav"] := by
    have hpath : join "/r" "nav/../nav" = "/r/nav/../nav" := by simp [join, isAbsolute]
    have hcomponents : components (slashed "/r/nav/../nav") = ["r", "nav", "..", "nav"] := by cbv
    have hroot : components (slashed "/r") = ["r"] := by cbv
    rw [hpath, location, location, hcomponents, hroot]
    decide
  exact ⟨s, hs, by rw [hcache, ← hbase', hlocation]⟩

/-- **A cache directory that is written with `..` is not skipped.** -/
theorem cacheDirectory_ignored_iff_dots : ∃ s, ofEnvironment dottedEnvironment dottedDisk = .ok s ∧
    location s.cacheDirectory = location s.baseDirectory ++ ["nav"] ∧
    ∃ ignored name, Lies "nav" name ∧
      ({ s with ignored := ignored } : Settings).root.isIgnored name = false := by
  obtain ⟨s, hs, hlocation⟩ := dotted_settings
  refine ⟨s, hs, hlocation, ?_⟩
  have hvalue : dottedEnvironment.value? "CACHE_DIR" = some "nav/../nav" := by cbv
  have hspelled :
      ¬Spelled s.baseDirectory ((dottedEnvironment.value? "CACHE_DIR").getD "./.semnav") := by
    have hcomponents : components (slashed "nav/../nav") = ["nav", "..", "nav"] := by cbv
    rw [hvalue, Option.getD_some, Spelled, if_neg (by decide), hcomponents]
    decide
  by_contra hnone
  refine hspelled ((cacheDirectory_ignored_iff hs (List.cons_ne_nil _ _) hlocation).1.mp
    fun ignored name hlies => ?_)
  by_contra hignored
  exact hnone ⟨ignored, name, hlies, by simpa using hignored⟩

end Settings

end CodeAtlas
