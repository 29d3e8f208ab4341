import CodeAtlas.Proofs.Disk.Fill
import CodeAtlas.Restore.Store

/-!
# What a run of copies does

Setup: files are copied one after the other, and the directories of the copies are made on the way.
The file of each name comes from the place `origin name` and goes to the place `goal name`
(`RestoreStore.Routes`); no copy goes where another one comes from. **`RestoreStore.Routes.copied`**
says what a run that succeeds leaves: each copy holds the bytes of its file, a path to it is found,
and nothing else has changed but for new directories.

Two names may lead to one place when links stand on the way. Then the last copy stays there, so the
two files must agree.
-/

namespace CodeAtlas

open CodeAtlas.Disk CodeAtlas.Path

namespace RestoreStore

variable {d d' : Disk} {names : List String} {source target : String → String}
  {origin goal : String → Place} {failed : String → DiskError → RestoreError}

/-- Before a file is copied the directory of the copy is made. -/
theorem copyTo_inv {source target : String} {failed : DiskError → RestoreError}
    (h : copyTo source target failed d = .ok () d') :
    ∃ e, d.Fills e [target] [] ∧ Disk.copy source target e = .ok () d' := by
  cases hparent : parent? target with
  | none =>
    simp only [copyTo, hparent] at h
    exact ⟨d, .refl d _, reporting_eq_ok.mp h⟩
  | some parent =>
    simp only [copyTo, hparent] at h
    obtain ⟨_, e, hmade, hcopy⟩ := bind_eq_ok.mp h
    have hfills := fills_makeDirectories parent d
    rw [Change.after, reporting_eq_ok.mp hmade] at hfills
    exact ⟨e, hfills.of_parent? hparent, reporting_eq_ok.mp hcopy⟩

/-- A copy that succeeds writes its file. -/
theorem fills_of_copyTo {source target : String} {failed : DiskError → RestoreError}
    (h : copyTo source target failed d = .ok () d') : d.Fills d' [target] [target] := by
  obtain ⟨e, hfills, hcopy⟩ := copyTo_inv h
  obtain ⟨goal, content, hwritable, rfl⟩ := copy_puts hcopy
  exact hfills.trans (fills_put hwritable content)

/-- A copy that fails makes directories at most. -/
theorem fills_of_copyTo_error {source target : String} {failed : DiskError → RestoreError}
    {e : RestoreError}
    (h : copyTo source target failed d = .error e d') : d.Fills d' [target] [] := by
  have hcopy {made : Disk} (hcopy : reporting failed (Disk.copy source target) made = .error e d') :
      d' = made := by
    obtain ⟨cause, hcause, -⟩ := reporting_eq_error.mp hcopy
    exact copy_error_inv hcause
  cases hparent : parent? target with
  | none =>
    simp only [copyTo, hparent] at h
    rw [hcopy h]
    exact .refl d _
  | some parent =>
    simp only [copyTo, hparent] at h
    have hfills := (fills_makeDirectories parent d).of_parent? hparent
    rw [Change.after] at hfills
    rcases bind_eq_error.mp h with hmake | ⟨_, made, hmake, hfail⟩
    · obtain ⟨cause, hcause, -⟩ := reporting_eq_error.mp hmake
      rwa [hcause] at hfills
    · rw [hcopy hfail]
      rwa [reporting_eq_ok.mp hmake] at hfills

/-- **What a run of copies does**, wherever the files come from: a copy may go where a later one
comes from. The induction follows the run. -/
theorem fills_of_forM
    (h : (names.forM fun name => copyTo (source name) (target name) (failed name)) d = .ok () d') :
    d.Fills d' (names.map target) (names.map target) := by
  induction names generalizing d with
  | nil =>
    cases h
    exact .refl _ _
  | cons name names ih =>
    simp only [List.forM_eq_forM, List.forM_cons] at h ih
    obtain ⟨_, between, hfirst, hrest⟩ := bind_eq_ok.mp h
    exact (fills_of_copyTo hfirst).trans (ih hrest)

/-- A run of changes that fails stops at one of them; those before it succeeded. -/
theorem forM_eq_error {ε α : Type} {f : α → Change ε PUnit} {as : List α} {cause : ε}
    (h : as.forM f d = .error cause d') :
    ∃ done a rest d₁, as = done ++ a :: rest ∧ done.forM f d = .ok () d₁ ∧
      f a d₁ = .error cause d' := by
  induction as generalizing d with
  | nil => cases h
  | cons a as ih =>
    simp only [List.forM_eq_forM, List.forM_cons] at h ih
    rcases bind_eq_error.mp h with hfirst | ⟨_, between, hfirst, hrest⟩
    · exact ⟨[], a, as, d, rfl, rfl, hfirst⟩
    · obtain ⟨done, b, rest, d₁, rfl, hdone, hfail⟩ := ih hrest
      refine ⟨a :: done, b, rest, d₁, rfl, ?_, hfail⟩
      simp only [List.forM_eq_forM, List.forM_cons]
      exact bind_eq_ok.mpr ⟨_, between, hfirst, hdone⟩

/-- Where the files of some names come from and go to. -/
structure Routes (d : Disk) (names : List String) (source target : String → String)
    (origin goal : String → Place) : Prop where
  /-- the path of a file aims at its origin -/
  comes : ∀ name ∈ names, d.Aims (source name) (origin name)
  /-- the path of a copy aims at its goal -/
  goes : ∀ name ∈ names, d.Aims (target name) (goal name)
  /-- the path of a copy has no slashes at its end -/
  spelled : ∀ name ∈ names, withoutEndSlashes (target name) = target name
  /-- no copy goes where a file comes from -/
  apart : ∀ a ∈ names, ∀ b ∈ names, goal a ≠ origin b
  /-- files that go to one place agree -/
  agree : ∀ a ∈ names, ∀ b ∈ names, goal a = goal b → ∀ bytes,
    d.lookup (origin a) = some (.file bytes) → d.lookup (origin b) = some (.file bytes)

/-- What copying the files of some names leaves. -/
structure Copied (d d' : Disk) (names : List String) (target : String → String)
    (origin goal : String → Place) : Prop where
  /-- each copy holds the bytes of its file -/
  bytes : ∀ name ∈ names, ∃ bytes, d.lookup (origin name) = some (.file bytes) ∧
    d'.lookup (goal name) = some (.file bytes)
  /-- each copy is found -/
  found : ∀ name ∈ names, d'.locate true (target name) = .ok (goal name)
  /-- elsewhere there are at most new directories -/
  kept : ∀ place, (∀ name ∈ names, place ≠ goal name) → d.Kept d' place
  /-- no link changed -/
  sameLinks : d.SameLinks d'
  /-- no directory is gone -/
  directories : ∀ place, d.lookup place = some .directory → d'.lookup place = some .directory

/-- What one copy does. -/
theorem Routes.copied_one {name : String} (h : Routes d names source target origin goal)
    (hname : name ∈ names)
    (hcopy : copyTo (source name) (target name) (failed name) d = .ok () d') :
    Copied d d' [name] target origin goal := by
  obtain ⟨e, hfills, hcopy⟩ := copyTo_inv hcopy
  have hgrows := hfills.grows
  obtain ⟨from', bytes, hsource, hbytes, goal', htarget, hdead, content, rfl, hcontent⟩ :=
    copy_inv hcopy
  rw [h.spelled name hname] at htarget
  obtain rfl := h.comes name hname e hgrows.sameLinks _ hsource
  obtain rfl := h.goes name hname e hgrows.sameLinks _ htarget
  obtain rfl := hcontent (h.apart name hname name hname)
  have hgoal := hdead.ne_nil
  have hways := sameWays_put hgoal hdead content
  refine ⟨?_, ?_, fun place hplace => ?_, hgrows.sameLinks.trans hways.sameLinks,
    fun place hplace => ?_⟩
  · rw [List.forall_mem_singleton]
    exact ⟨content, (hgrows.lookup_iff (by simp)).mp hbytes, by rw [lookup_put hgoal, if_pos rfl]⟩
  · rw [List.forall_mem_singleton]
    exact hways.locate_iff.mp htarget
  · rw [List.forall_mem_singleton] at hplace
    rw [Kept, lookup_put hgoal, if_neg hplace]
    exact hgrows place
  · exact hways.directory (hgrows.lookup_of_some hplace)

/-- A file that is no goal of a copy is a file before and after it. -/
theorem Copied.lookup_file_iff {place : Place} (h : Copied d d' names target origin goal)
    (hplace : ∀ name ∈ names, place ≠ goal name) {bytes : ByteArray} :
    d'.lookup place = some (.file bytes) ↔ d.lookup place = some (.file bytes) :=
  ⟨(h.kept place hplace).lookup_of_file, (h.kept place hplace).lookup_of_some⟩

/-- After one copy the routes of the others are as before. -/
theorem Routes.after {name : String} {rest : List String}
    (h : Routes d (name :: rest) source target origin goal)
    (hcopied : Copied d d' [name] target origin goal) :
    Routes d' rest source target origin goal := by
  have hmem {a : String} (ha : a ∈ rest) : a ∈ name :: rest := List.mem_cons_of_mem _ ha
  have horigin {a : String} (ha : a ∈ rest) {bytes : ByteArray} :
      d'.lookup (origin a) = some (.file bytes) ↔ d.lookup (origin a) = some (.file bytes) :=
    hcopied.lookup_file_iff fun b hb => by
      rw [List.mem_singleton.mp hb]
      exact (h.apart name List.mem_cons_self a (hmem ha)).symm
  refine ⟨fun a ha => (h.comes a (hmem ha)).sameLinks hcopied.sameLinks,
    fun a ha => (h.goes a (hmem ha)).sameLinks hcopied.sameLinks,
    fun a ha => h.spelled a (hmem ha), fun a ha b hb => h.apart a (hmem ha) b (hmem hb),
    fun a ha b hb hgoal bytes hbytes => ?_⟩
  exact (horigin hb).mpr (h.agree a (hmem ha) b (hmem hb) hgoal bytes ((horigin ha).mp hbytes))

/-- **What a run of copies leaves**, if it succeeds. The induction follows the run: the first copy
is made, and the others start from the disk that it leaves. -/
theorem Routes.copied (h : Routes d names source target origin goal)
    (hrun : (names.forM fun name => copyTo (source name) (target name) (failed name)) d =
      .ok () d') :
    Copied d d' names target origin goal := by
  induction names generalizing d with
  | nil =>
    cases hrun
    exact ⟨by simp, by simp, fun _ _ => .inl rfl, .refl _, fun _ hplace => hplace⟩
  | cons name rest ih =>
    simp only [List.forM_eq_forM, List.forM_cons] at hrun
    obtain ⟨_, e, hcopy, hrun⟩ := bind_eq_ok.mp hrun
    have hfirst := h.copied_one List.mem_cons_self hcopy
    have hrest := ih (h.after hfirst) hrun
    obtain ⟨bytes, hbytes, hgoal⟩ := hfirst.bytes name (List.mem_singleton.mpr rfl)
    have horigin {a : String} (ha : a ∈ rest) {bytes : ByteArray} :
        e.lookup (origin a) = some (.file bytes) ↔ d.lookup (origin a) = some (.file bytes) :=
      hfirst.lookup_file_iff fun b hb => by
        rw [List.mem_singleton.mp hb]
        exact (h.apart name List.mem_cons_self a (List.mem_cons_of_mem _ ha)).symm
    refine ⟨List.forall_mem_cons.mpr ⟨⟨bytes, hbytes, ?_⟩, fun a ha => ?_⟩,
      List.forall_mem_cons.mpr ⟨?_, hrest.found⟩, fun place hplace => ?_,
      hfirst.sameLinks.trans hrest.sameLinks,
      fun place hplace => hrest.directories place (hfirst.directories place hplace)⟩
    · -- a later copy to the same place brings the same bytes
      by_cases hagain : ∃ a ∈ rest, goal name = goal a
      · obtain ⟨a, ha, hsame⟩ := hagain
        obtain ⟨bytes', hbytes', hgoal'⟩ := hrest.bytes a ha
        have hagree :=
          h.agree name List.mem_cons_self a (List.mem_cons_of_mem _ ha) hsame bytes hbytes
        rw [(horigin ha).mp hbytes'] at hagree
        rw [hsame, hgoal', hagree]
      · exact (hrest.lookup_file_iff fun a ha hsame => hagain ⟨a, ha, hsame⟩).mpr hgoal
    · obtain ⟨bytes, hbytes, hgoal⟩ := hrest.bytes a ha
      exact ⟨bytes, (horigin ha).mp hbytes, hgoal⟩
    · exact hrest.sameLinks.locate hrest.directories
        (hfirst.found name (List.mem_singleton.mpr rfl))
    · rw [List.forall_mem_cons] at hplace
      exact (hfirst.kept place (by simpa using hplace.1)).trans (hrest.kept place hplace.2)

/-! ## The first copy of a point -/

/-- A copy succeeds where its directory is made and the file is copied. -/
theorem copyTo_of_copy {e : Disk} {source target parent : String}
    {failed : DiskError → RestoreError}
    (hparent : parent? target = some parent) (hmade : makeDirectories parent d = .ok () e)
    (hcopy : Disk.copy source target e = .ok () d') :
    copyTo source target failed d = .ok () d' := by
  simp only [copyTo, hparent]
  exact bind_eq_ok.mpr ⟨(), e, reporting_eq_ok.mpr hmade, reporting_eq_ok.mpr hcopy⟩

/-- **A file is copied aside** to a new directory of the store. -/
theorem backUp_one {s : RestoreStore} {vault from' : Place} {bytes : ByteArray} {id name : String}
    (hsource : d.locate true (s.root.absolute name) = .ok from')
    (hbytes : d.lookup from' = some (.file bytes))
    (hstore : d.locate true s.directory = .ok vault) (hvault : d.lookup vault = some .directory)
    (hid : IsName id) (hname : IsName name) (hnew : ∀ more, d.lookup (vault ++ id :: more) = none)
    (hparent : parent? (join (s.pointDirectory id) name) = some (s.pointDirectory id)) :
    s.backUp id [name] d =
      .ok () ((d.put (vault ++ [id]) .directory).put (vault ++ [id] ++ [name]) (.file bytes)) := by
  have hgrows := grows_put (hnew [])
  have hplace := lookup_put (d := d) (List.append_ne_nil_of_right_ne_nil vault
    (List.cons_ne_nil id [])) .directory
  have hmade := makeDirectories_of_new hstore hvault hid (hnew [])
  generalize d.put (vault ++ [id]) .directory = e at hgrows hplace hmade
  have hdirectory : e.lookup (vault ++ [id]) = some .directory := by rw [hplace, if_pos rfl]
  have hnone : e.lookup (vault ++ [id] ++ [name]) = none := by
    rw [hplace, if_neg (by simp), List.append_assoc]
    exact hnew [name]
  have hfound : e.locate true (s.pointDirectory id) = .ok (vault ++ [id]) :=
    locate_join true (hgrows.locate hstore) (hgrows.lookup_of_some hvault) hid
      (by simp [hdirectory])
  have hfile := hgrows.lookup_of_some hbytes
  have hcopy := copy_eq (hgrows.locate hsource) hfile hfound hdirectory hname
    (by rw [hnone]; trivial) (by rintro rfl; rw [hnone] at hfile; cases hfile)
  rw [backUp, List.forM_eq_forM, List.forM_cons]
  exact bind_eq_ok.mpr ⟨(), _, copyTo_of_copy hparent hmade hcopy, rfl⟩

end RestoreStore

end CodeAtlas
