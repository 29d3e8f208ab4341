import CodeAtlas.Navigator.Pattern
import Mathlib.Data.List.TakeWhile
import Mathlib.Tactic

/-!
# What a pattern says of its files

Setup: lists of components are ordered by being the beginning of one another, and in this order
`commonStart` is the meet of two lists (`prefix_commonStart_iff`). So the common directory is the
meet of all directories, in whatever order they are taken. The common extension is taken from the
first file, but it is common only if it is every file's, so it too does not depend on which file is
first.

* `prefix_commonDirectory_iff` — what lies above the common directory lies above every file, and the
  other way round.
* `extensionOf?_eq_some_iff` — the extension of a file, said of its name.
* **`pathPattern?_shared`** — the pattern of some files is made of the longest directory and the
  extension that they share.
-/

namespace CodeAtlas.Navigator

open CodeAtlas.Text

variable {file e : String} {files : List String} {xs ys zs : List String}

/-! ## Directories -/

/-- **The common start of two lists is their meet**: it starts with what both of them start with. -/
theorem prefix_commonStart_iff : zs <+: commonStart xs ys ↔ zs <+: xs ∧ zs <+: ys := by
  induction xs generalizing ys zs with
  | nil =>
    rw [commonStart.eq_def]
    exact ⟨fun h => ⟨h, (List.prefix_nil.mp h) ▸ List.nil_prefix⟩, And.left⟩
  | cons x xs ih =>
    cases ys with
    | nil =>
      rw [commonStart.eq_def]
      exact ⟨fun h => ⟨(List.prefix_nil.mp h) ▸ List.nil_prefix, h⟩, And.right⟩
    | cons y ys =>
      cases zs with
      | nil => exact ⟨fun _ => ⟨List.nil_prefix, List.nil_prefix⟩, fun _ => List.nil_prefix⟩
      | cons z zs =>
        rw [commonStart]
        split_ifs with hxy
        · subst hxy
          simp only [List.cons_prefix_cons, ih, and_assoc, and_left_comm, and_self_left]
        · simp only [List.cons_prefix_cons, List.prefix_nil, List.cons_ne_nil, false_iff]
          rintro ⟨⟨rfl, -⟩, rfl, -⟩
          exact hxy rfl

/-- The common start of several lists is their meet. -/
theorem prefix_foldl_commonStart_iff (lists : List (List String)) :
    zs <+: lists.foldl commonStart xs ↔ zs <+: xs ∧ ∀ ys ∈ lists, zs <+: ys := by
  induction lists generalizing xs with
  | nil => simp
  | cons ys lists ih =>
    rw [List.foldl_cons, ih, prefix_commonStart_iff, and_assoc, List.forall_mem_cons]

/-- **The common directory is the meet of the directories** of the files. -/
theorem prefix_commonDirectory_iff (hfiles : files ≠ []) :
    zs <+: commonDirectory files ↔ ∀ file ∈ files, zs <+: directoryOf file := by
  obtain ⟨first, rest, rfl⟩ := List.exists_cons_of_ne_nil hfiles
  rw [commonDirectory, prefix_foldl_commonStart_iff, List.forall_mem_map, List.forall_mem_cons]

/-- Two lists that start with the same lists are the same. -/
theorem eq_of_prefix_iff (h : ∀ zs : List String, zs <+: xs ↔ zs <+: ys) : xs = ys := by
  have hle : xs <+: ys := (h xs).mp List.prefix_rfl
  have hge : ys <+: xs := (h ys).mpr List.prefix_rfl
  exact hle.eq_of_length (hle.length_le.antisymm hge.length_le)

/-- The order of the files is nothing to the common directory. -/
theorem commonDirectory_perm {files' : List String} (hfiles : files ≠ []) (h : files'.Perm files) :
    commonDirectory files' = commonDirectory files := by
  have hfiles' : files' ≠ [] := fun hnil => hfiles (hnil ▸ h).symm.eq_nil
  refine eq_of_prefix_iff fun zs => ?_
  simp only [prefix_commonDirectory_iff hfiles, prefix_commonDirectory_iff hfiles', h.mem_iff]

/-! ## Extensions -/

/-- The name of a file: what follows the last slash of its path. -/
def fileName (path : String) : String :=
  (splitOn '/' path).getLastD ""

/-- A file has an extension when its name is something, a dot, and an extension that is something
without a dot. A name whose only dot is the first or the last of its characters has none. -/
def HasExtension (file e : String) : Prop :=
  ∃ stem, stem ≠ "" ∧ e ≠ "" ∧ '.' ∉ e.toList ∧ fileName file = stem ++ "." ++ e

/-- A name without a dot has no extension. -/
theorem extensionOf?_of_notMem (h : '.' ∉ (fileName file).toList) : extensionOf? file = none := by
  have hall : ∀ c ∈ (fileName file).toList.reverse, decide (c ≠ '.') = true := fun c hc =>
    decide_eq_true fun hdot => h (hdot ▸ List.mem_reverse.mp hc)
  rw [extensionOf?, ← fileName, List.span_eq_takeWhile_dropWhile,
    List.dropWhile_eq_nil_iff.mpr hall]

/-- A name with a dot is cut at the last one. -/
theorem extensionOf?_of_last {stem tail : List Char} (htail : '.' ∉ tail)
    (hname : (fileName file).toList = stem ++ '.' :: tail) :
    extensionOf? file =
        if stem.isEmpty || tail.isEmpty then none else some (String.ofList tail) := by
  have hall : ∀ c ∈ tail.reverse, decide (c ≠ '.') = true := fun c hc =>
    decide_eq_true fun hdot => htail (hdot ▸ List.mem_reverse.mp hc)
  have hreverse : (fileName file).toList.reverse = tail.reverse ++ '.' :: stem.reverse := by
    rw [hname, List.reverse_append, List.reverse_cons, List.append_assoc, List.singleton_append]
  rw [extensionOf?, ← fileName, hreverse, List.span_eq_takeWhile_dropWhile,
    List.takeWhile_append_of_pos hall, List.dropWhile_append_of_pos hall,
    List.takeWhile_cons_of_neg (by simp), List.dropWhile_cons_of_neg (by simp), List.append_nil]
  simp only [List.isEmpty_reverse, List.reverse_reverse]

/-- **The extension of a file is the one that it has.** -/
theorem extensionOf?_eq_some_iff : extensionOf? file = some e ↔ HasExtension file e := by
  constructor
  · intro h
    by_cases hdot : '.' ∈ (fileName file).toList
    · obtain ⟨tail, stem, hreverse, htail⟩ := List.eq_append_cons_of_mem (List.mem_reverse.mpr hdot)
      have hname : (fileName file).toList = stem.reverse ++ '.' :: tail.reverse := by
        rw [← List.reverse_reverse (fileName file).toList, hreverse]
        simp
      rw [extensionOf?_of_last (by simpa using htail) hname] at h
      split_ifs at h with hempty
      obtain rfl := Option.some.inj h
      simp only [List.isEmpty_reverse, Bool.or_eq_true, List.isEmpty_iff, not_or] at hempty
      refine ⟨String.ofList stem.reverse, by simpa using hempty.1, by simpa using hempty.2,
        by simpa using htail, String.toList_inj.mp ?_⟩
      simp [hname]
    · rw [extensionOf?_of_notMem hdot] at h
      cases h
  · rintro ⟨stem, hstem, he, hdot, hname⟩
    have hchars : (fileName file).toList = stem.toList ++ '.' :: e.toList := by simp [hname]
    rw [extensionOf?_of_last hdot hchars]
    simp [hstem, he]

/-- The common extension is the one that every file has. -/
theorem commonExtension?_eq_some_iff (hfiles : files ≠ []) :
    commonExtension? files = some e ↔ ∀ file ∈ files, HasExtension file e := by
  obtain ⟨first, rest, rfl⟩ := List.exists_cons_of_ne_nil hfiles
  simp only [commonExtension?, Option.filter_eq_some_iff, List.all_eq_true, decide_eq_true_eq,
    List.forall_mem_cons, extensionOf?_eq_some_iff]

/-- The order of the files is nothing to the common extension. -/
theorem commonExtension?_perm {files' : List String} (hfiles : files ≠ []) (h : files'.Perm files) :
    commonExtension? files' = commonExtension? files := by
  have hfiles' : files' ≠ [] := fun hnil => hfiles (hnil ▸ h).symm.eq_nil
  refine Option.ext fun e => ?_
  simp only [commonExtension?_eq_some_iff hfiles, commonExtension?_eq_some_iff hfiles', h.mem_iff]

/-! ## Patterns -/

/-- The directory and the extension that files share, as far as there is any. -/
structure CommonParts (files : List String) (directory : List String) (extension : Option String) :
    Prop where
  /-- every file lies below the directory -/
  below : ∀ file ∈ files, directory <+: directoryOf file
  /-- every other directory of which this holds starts the directory -/
  longest : ∀ other, (∀ file ∈ files, other <+: directoryOf file) → other <+: directory
  /-- the extension is there just when every file has it -/
  extension : ∀ e, extension = some e ↔ ∀ file ∈ files, HasExtension file e

/-- How a directory and an extension are written: either part is left out if it is absent. -/
def patternOf? : List String → Option String → Option String
  | [], none => none
  | [], some e => some ("**/*." ++ e)
  | directory, none => some ("/".intercalate directory ++ "/**")
  | directory, some e => some ("/".intercalate directory ++ "/**/*." ++ e)

/-- The pattern of some files is that of their common parts. -/
theorem pathPattern?_eq (files : List String) :
    pathPattern? files = patternOf? (commonDirectory files) (commonExtension? files) := by
  rw [pathPattern?]
  cases commonDirectory files <;> cases commonExtension? files <;> rfl

/-- There is no pattern just when both parts are absent. -/
theorem patternOf?_eq_none_iff {directory : List String} {extension : Option String} :
    patternOf? directory extension = none ↔ directory = [] ∧ extension = none := by
  cases directory <;> cases extension <;> simp [patternOf?]

/-- **What a pattern says of its files**: it is made of the longest directory that all of them lie
below and of the extension that all of them have, there is none just when both are absent, and it
does not depend on the order of the files. -/
theorem pathPattern?_shared (files : List String) (hfiles : files ≠ []) :
    ∃ directory extension, CommonParts files directory extension ∧
      pathPattern? files = patternOf? directory extension ∧
      (pathPattern? files = none ↔ directory = [] ∧ extension = none) ∧
      ∀ files', files'.Perm files → pathPattern? files' = pathPattern? files := by
  refine ⟨commonDirectory files, commonExtension? files, ⟨?_, ?_, ?_⟩, pathPattern?_eq files, ?_,
    ?_⟩
  · exact (prefix_commonDirectory_iff hfiles).mp List.prefix_rfl
  · exact fun other => (prefix_commonDirectory_iff hfiles).mpr
  · exact fun e => commonExtension?_eq_some_iff hfiles
  · rw [pathPattern?_eq, patternOf?_eq_none_iff]
  · intro files' h
    rw [pathPattern?_eq, pathPattern?_eq, commonDirectory_perm hfiles h,
      commonExtension?_perm hfiles h]

/-- The pattern of three sources, one of them with two dots in its name. -/
theorem pathPattern?_shared_sources :
    let files := ["src/auth/jwt.rs", "src/.cache/mod.test.rs", "src/auth/../b.rs"]
    files ≠ [] ∧ pathPattern? files = some "src/**/*.rs" ∧
      ∃ directory extension, CommonParts files directory extension ∧
        pathPattern? files = patternOf? directory extension ∧
        (pathPattern? files = none ↔ directory = [] ∧ extension = none) ∧
        ∀ files', files'.Perm files → pathPattern? files' = pathPattern? files :=
  ⟨by decide, by decide +kernel, pathPattern?_shared _ (by decide)⟩

end CodeAtlas.Navigator
