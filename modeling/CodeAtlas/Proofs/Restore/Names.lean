import CodeAtlas.Proofs.Disk.Links
import CodeAtlas.Restore.Store

/-!
# The names in a restore point

Setup: the paths that a point is made of are turned into names under the root, and each name is kept
once. A name that is kept consists of components that can be entries of a directory
(`RestoreStore.Named`), since the root itself is no file. **`RestoreStore.namesOf_spec`** says which
names are kept.
-/

namespace CodeAtlas

open CodeAtlas.Disk CodeAtlas.Path CodeAtlas.Text

namespace RestoreStore

variable {s : RestoreStore} {d : Disk} {name path : String} {names paths : List String}

/-- The components of a name can be entries of directories. -/
structure Named (name : String) : Prop where
  /-- each component is a name of its own -/
  parts : ∀ part ∈ splitOn '/' name, IsName part
  /-- the components joined are the name -/
  joined : ofComponents (splitOn '/' name) = name

/-- Joined names are such a name. -/
theorem named_ofComponents {parts : List String} (hne : parts ≠ [])
    (hparts : ∀ part ∈ parts, IsName part) :
    Named (ofComponents parts) := by
  have hsplit := splitOn_ofComponents hne hparts
  exact ⟨by rwa [hsplit], by rw [hsplit]⟩

/-- A path under a directory is the path of the components below it. -/
theorem Named.join_eq (h : Named name) (directory : String) :
    join directory name = pathBelow directory (splitOn '/' name) := by
  rw [pathBelow_eq directory (splitOn_ne_nil name) h.parts, h.joined]

/-- A component of a name under a root is a name, or the name is that of the root. -/
theorem named_of_relative {root : Root} (h : root.relative path = .ok name) :
    name = "." ∨ Named name := by
  rw [Root.relative] at h
  split at h
  · next parts hparts =>
    split_ifs at h with hdots
    cases h
    obtain ⟨rest, -, rfl⟩ := Option.map_eq_some_iff.mp hparts
    rw [Root.nameOf]
    split_ifs with hempty
    · exact .inl rfl
    · refine .inr (named_ofComponents (by simpa using hempty) fun part hpart => ?_)
      rw [components, List.mem_filter, isNaming, Bool.and_eq_true, decide_eq_true_eq,
        decide_eq_true_eq] at hpart
      refine ⟨hpart.2.1, hpart.2.2, ?_, ?_⟩
      · rintro rfl
        exact hdots (List.mem_filter.mpr ⟨hpart.1, by decide⟩)
      · obtain ⟨piece, hpiece, rfl⟩ := List.mem_map.mp hpart.1
        simpa using notMem_of_mem_piecesAt hpiece
  · cases h

/-- A directory named with a dot at the end is no file. -/
theorem isFile_join_dot (directory : String) (d : Disk) :
    d.isFile (join directory ".") = false := by
  by_contra hfile
  obtain ⟨place, bytes, hlocate, hentry⟩ := isFile_iff.mp (Bool.not_eq_false _ |>.mp hfile)
  obtain ⟨parts, hparts⟩ : ∃ parts, splitOn '/' (join directory ".") = parts ++ ["."] := by
    rcases splitOn_join directory (show '/' ∉ ".".toList by decide) with h | ⟨parts, -, h⟩
    · exact ⟨_, h⟩
    · exact ⟨parts, h⟩
  rw [locate_iff_leads, hparts] at hlocate
  obtain ⟨_, here, -, hlast⟩ := hlocate.split (List.cons_ne_nil _ _)
  generalize hdot : "." = dot at hlast
  cases hlast with
  | idle hhere _ go =>
    cases go
    rw [hhere] at hentry
    cases hentry
  | up => exact absurd hdot (by decide)
  | stay _ idle | jump _ idle | enter _ idle => exact absurd (.inr hdot.symm) idle

/-- A file's name under the root. -/
theorem fileNameOf_spec (h : s.fileNameOf d path = .ok name) :
    s.root.relative path = .ok name ∧ d.isFile (s.root.absolute name) = true ∧ Named name := by
  rw [fileNameOf] at h
  split at h
  · cases h
  · next hrelative =>
    split_ifs at h with hfile
    cases h
    refine ⟨hrelative, hfile, (named_of_relative hrelative).resolve_left ?_⟩
    rintro rfl
    rw [Root.absolute, isFile_join_dot] at hfile
    cases hfile

/-! ## Each name once -/

/-- A name is added where it is missing. -/
theorem addName_spec {names : List String} (h : names.Nodup) (name : String) :
    (addName names name).Nodup ∧ ∀ n, n ∈ addName names name ↔ n ∈ names ∨ n = name := by
  rw [addName]
  split_ifs with hmem
  · rw [List.contains_iff_mem] at hmem
    exact ⟨h, fun n => ⟨.inl, fun hn => hn.elim id fun hname => hname ▸ hmem⟩⟩
  · rw [List.contains_iff_mem] at hmem
    refine ⟨List.nodup_append.mpr ⟨h, List.nodup_singleton name, ?_⟩, fun n => by simp⟩
    rintro n hn _ hname rfl
    rw [List.mem_singleton] at hname
    exact hmem (hname ▸ hn)

/-- The names that are collected are those at hand and those that are added, each of them once. -/
theorem foldl_addName (all : List String) (h : names.Nodup) :
    (all.foldl addName names).Nodup ∧ ∀ n, n ∈ all.foldl addName names ↔ n ∈ names ∨ n ∈ all := by
  induction all generalizing names with
  | nil => exact ⟨h, fun n => by simp⟩
  | cons name all ih =>
    obtain ⟨hnodup, hmem⟩ := addName_spec h name
    obtain ⟨hall, hallMem⟩ := ih hnodup
    refine ⟨hall, fun n => ?_⟩
    rw [List.foldl_cons, hallMem, hmem, List.mem_cons, or_assoc]

/-- A run over a list succeeds for each element, and its results are those of the elements. -/
theorem mem_of_mapM {α β ε : Type} {f : α → Except ε β} {xs : List α} {ys : List β}
    (h : xs.mapM f = .ok ys) : (∀ x ∈ xs, ∃ y, f x = .ok y) ∧ ∀ y, y ∈ ys ↔
    ∃ x ∈ xs, f x = .ok y := by
  induction xs generalizing ys with
  | nil =>
    cases h
    simp
  | cons x xs ih =>
    simp only [List.mapM_cons, bind, Except.bind] at h
    split at h
    · cases h
    · next y hy =>
      split at h
      · cases h
      · next ys' hys =>
        cases h
        obtain ⟨heach, hmem⟩ := ih hys
        refine ⟨List.forall_mem_cons.mpr ⟨⟨y, hy⟩, heach⟩, fun z => ?_⟩
        rw [List.mem_cons, hmem, List.exists_mem_cons_iff, hy, Except.ok.injEq, eq_comm]

/-- A run over a list that fails fails for one element. -/
theorem exists_of_mapM {α β ε : Type} {f : α → Except ε β} {xs : List α} {e : ε}
    (h : xs.mapM f = .error e) :
    ∃ x ∈ xs, f x = .error e := by
  induction xs with
  | nil => cases h
  | cons x xs ih =>
    simp only [List.mapM_cons, bind, Except.bind] at h
    split at h
    · next hx =>
      cases h
      exact ⟨x, List.mem_cons_self, hx⟩
    · split at h
      · next hxs =>
        cases h
        obtain ⟨y, hy, hfail⟩ := ih hxs
        exact ⟨y, List.mem_cons_of_mem _ hy, hfail⟩
      · cases h

/-- **The names of a point**: at least one, no name twice, and exactly those of the paths; each of
them names a file. -/
theorem namesOf_spec (h : s.namesOf d paths = .ok names) :
    names ≠ [] ∧ names.Nodup ∧
      (∀ name, name ∈ names ↔ ∃ path ∈ paths, s.root.relative path = .ok name) ∧
      ∀ name ∈ names, d.isFile (s.root.absolute name) = true ∧ Named name := by
  rw [namesOf] at h
  split_ifs at h with hempty
  cases hall : paths.mapM (s.fileNameOf d) with
  | error e => simp [hall, Except.map] at h
  | ok all =>
    simp only [hall, Except.map, Except.ok.injEq] at h
    subst h
    obtain ⟨hnodup, hmem⟩ := foldl_addName all List.nodup_nil
    obtain ⟨heach, hfiles⟩ := mem_of_mapM hall
    have hname : ∀ name, name ∈ all.foldl addName [] ↔
        ∃ path ∈ paths, s.fileNameOf d path = .ok name := by
      intro name
      rw [hmem, ← hfiles]
      simp
    refine ⟨?_, hnodup, fun name => ?_, fun name hmem => ?_⟩
    · obtain ⟨path, hpath⟩ := List.exists_mem_of_ne_nil paths (by simpa using hempty)
      obtain ⟨name, hfile⟩ := heach path hpath
      exact List.ne_nil_of_mem ((hname name).mpr ⟨path, hpath, hfile⟩)
    · rw [hname]
      refine exists_congr fun path => and_congr_right fun hpath => ?_
      obtain ⟨name', hfile⟩ := heach path hpath
      rw [hfile, (fileNameOf_spec hfile).1, Except.ok.injEq, Except.ok.injEq]
    · obtain ⟨path, -, hpath⟩ := (hname name).mp hmem
      exact (fileNameOf_spec hpath).2

end RestoreStore

end CodeAtlas
