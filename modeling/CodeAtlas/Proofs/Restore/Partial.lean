import Mathlib
import CodeAtlas.Proofs.Restore.RoundTrip
import CodeAtlas.Session.Basic

/-!
# What a restore that fails leaves

Setup: the copies of a point are put back one after the other, and one of them cannot be put back.
Those before it stay put back: nothing is undone. **`RestoreStore.restore_failure`** says where such
a run stops and what stands on the disk then: no file has changed exactly if the files in front of
the failing one already held what their copies hold. A point that is not found, or that names an
unsafe path, fails before the first file is written.

A session keeps its snapshots when restoring fails, so after a run that stops in the middle they
describe files that are gone (`RestoreStore.restore_failure_overwrites`).
-/

namespace CodeAtlas

open CodeAtlas.Disk CodeAtlas.Path

namespace RestoreStore

variable {s : RestoreStore} {d d' : Disk} {e : RestoreError}

/-- Restoring fails when the point is not found, when a name of it is unsafe, or when its copies
cannot be put back. -/
theorem restore_eq_error_iff {id : String} : s.restore id d = .error e d' ↔
    (d' = d ∧ s.find id d = .error e) ∨ ∃ point, s.find id d = .ok point ∧
      ((d' = d ∧ s.check point = .error e) ∨
        s.check point = .ok () ∧ s.putBack point d = .error e d') := by
  rw [restore]
  cases hfind : s.find id d with
  | error cause => simp [and_comm, eq_comm]
  | ok point =>
    cases hcheck : s.check point with
    | error cause => simp [hcheck, and_comm, eq_comm]
    | ok =>
      cases hput : s.putBack point d with
      | ok _ d₁ => simp [hcheck, hput]
      | error cause d₁ => simp [hcheck, hput]

/-- The run that puts back the copies of a point stops at one of its files: those in front of it,
`done`, have been put back, and it fails. -/
def StopsAfter (s : RestoreStore) (point : RestorePoint) (done : List String) (d : Disk)
    (e : RestoreError) (d' : Disk) : Prop :=
  ∃ name rest d₁, point.files = done ++ name :: rest ∧
    s.putBack { point with files := done } d = .ok () d₁ ∧
    copyTo (join (s.pointDirectory point.id) name) (s.root.absolute name) (.putBack name point.id)
        d₁ =
      .error e d'

/-- **What a restore that fails leaves.** Either it fails before the first file is written and
leaves the disk as it was, or it stops at a file that cannot be put back. Then the files in front of
that one have been put back and everything else is as it was, but for new directories; no file has
changed exactly if each of those holds what it held. Where no copy goes where another one comes
from, that is: exactly if their copies hold what they held. A session keeps everything but the disk.
-/
theorem restore_failure {id : String} (h : s.restore id d = .error e d') :
    ((d' = d ∧ ∀ point, s.find id d = .ok point → s.check point = .error e) ∨
      ∃ point done, s.find id d = .ok point ∧ s.check point = .ok () ∧
        s.StopsAfter point done d e d' ∧
        (∀ place, (∀ a ∈ done, d'.locate true (s.root.absolute a) ≠ .ok place) → d.Kept d' place) ∧
        (d.SameContents d' ↔ ∀ a ∈ done, ∀ place,
          d'.locate true (s.root.absolute a) = .ok place → d'.lookup place = d.lookup place) ∧
        ∀ origin goal, Routes d done (fun a => join (s.pointDirectory point.id) a) s.root.absolute
            origin goal →
          (d.SameContents d' ↔ ∀ a ∈ done, d.lookup (goal a) = d.lookup (origin a))) ∧
    ∀ (σ ℓ : Type) (session : Session σ ℓ) (st : Session.State σ ℓ), session.store = s →
      st.disk = d →
      session.restoring id st = (.error e, st.withDisk d') := by
  refine ⟨?_, fun σ ℓ session st hstore hdisk => by rw [Session.restoring, hstore, hdisk, h]⟩
  rcases restore_eq_error_iff.mp h with ⟨rfl, hfind⟩ |
    ⟨point, hfind, ⟨rfl, hcheck⟩ | ⟨hcheck, hput⟩⟩
  · exact .inl ⟨rfl, fun point hpoint => by rw [hfind] at hpoint; cases hpoint⟩
  · refine .inl ⟨rfl, fun point' hpoint => ?_⟩
    rw [hfind, Except.ok.injEq] at hpoint
    rw [← hpoint, hcheck]
  · obtain ⟨done, name, rest, d₁, hfiles, hdone, hfail⟩ := forM_eq_error hput
    have hgrows := (fills_of_copyTo_error hfail).grows
    have hfills := (fills_of_forM hdone).trans (fills_of_copyTo_error hfail)
    rw [List.append_nil] at hfills
    have hsame := hfills.sameContents_iff
    rw [List.forall_mem_map] at hsame
    refine .inr ⟨point, done, hfind, hcheck, ⟨name, rest, d₁, hfiles, hdone, hfail⟩,
      fun place hplace => hfills.kept (List.forall_mem_map.mpr hplace), hsame,
      fun origin goal hroutes => hsame.trans ?_⟩
    have hcopied := hroutes.copied hdone
    refine forall₂_congr fun a ha => ?_
    obtain ⟨bytes, horigin, hgoal⟩ := hcopied.bytes a ha
    rw [hgrows.locate (hcopied.found a ha)]
    simp only [Except.ok.injEq, forall_eq', hgrows.lookup_of_some hgoal, horigin]
    exact eq_comm

/-! ## A copy that is missing

A point of two files is restored, and the copy of the second one is gone. -/

/-- The point. -/
def twoFilesPoint : RestorePoint :=
  ⟨"rp-7-0", 7, ["a", "b"], "before"⟩

/-- A root with two files, a log, and the copy of the first file. -/
def twoFiles (log : ByteArray) : Disk :=
  ((((((Disk.empty.put ["r"] .directory).put ["r", "a"] (.file "new".toUTF8)).put ["r", "b"]
    (.file "new".toUTF8)).put ["r", "s"] .directory).put ["r", "s", logName] (.file log)).put
    ["r", "s", "rp-7-0"] .directory).put ["r", "s", "rp-7-0", "a"] (.file "old".toUTF8)

/-- The first file is put back. -/
theorem twoFiles_first (log : ByteArray) :
    copyTo (join (oneFileStore.pointDirectory "rp-7-0") "a") (oneFileStore.root.absolute "a")
      (.putBack "a" "rp-7-0") (twoFiles log) =
        .ok () ((twoFiles log).put ["r", "a"] (.file "old".toUTF8)) := by
  have hjoin : "/r/a" = join "/r" "a" := by simp [join, isAbsolute]
  have hroot : (twoFiles log).locate true "/r" = .ok ["r"] := by cbv
  have htop : (twoFiles log).lookup ["r"] = some .directory := by cbv
  rw [oneFileStore_copy, oneFileStore_absolute, hjoin]
  exact copyTo_of_copy (by cbv) (makeDirectories_of_directory hroot htop)
    (copy_eq (by cbv)
      (show (twoFiles log).lookup ["r", "s", "rp-7-0", "a"] = some (.file "old".toUTF8) by cbv)
      hroot htop ⟨by decide, by decide, by decide, by decide⟩
      (by
        rw [show (twoFiles log).lookup (["r"] ++ ["a"]) = some (.file "new".toUTF8) by cbv]
        trivial) (by decide))

/-- The second one is not. -/
theorem twoFiles_second (log : ByteArray) :
    copyTo (join (oneFileStore.pointDirectory "rp-7-0") "b") (oneFileStore.root.absolute "b")
      (.putBack "b" "rp-7-0") ((twoFiles log).put ["r", "a"] (.file "old".toUTF8)) =
        .error (.putBack "b" "rp-7-0" .notFound)
          ((twoFiles log).put ["r", "a"] (.file "old".toUTF8)) := by
  have hjoin : join "/r/s/rp-7-0" "b" = "/r/s/rp-7-0/b" := by simp [join, isAbsolute]
  have habsolute : oneFileStore.root.absolute "b" = "/r/b" := by cbv
  rw [oneFileStore_pointDirectory, hjoin, habsolute]
  generalize hd : (twoFiles log).put ["r", "a"] (.file "old".toUTF8) = d
  have hroot : d.locate true "/r" = .ok ["r"] := by rw [← hd]; cbv
  have htop : d.lookup ["r"] = some .directory := by rw [← hd]; cbv
  have hcopy : Disk.copy "/r/s/rp-7-0/b" "/r/b" d = .error .notFound d := by
    have hlocate : d.locate true "/r/s/rp-7-0/b" = .ok ["r", "s", "rp-7-0", "b"] := by
      rw [← hd]; cbv
    have hnone : d.lookup ["r", "s", "rp-7-0", "b"] = none := by rw [← hd]; cbv
    simp [Disk.copy, canonical?, hlocate, hnone]
  rw [copyTo, show parent? "/r/b" = some "/r" by cbv]
  exact bind_eq_error.mpr
    (.inr ⟨(), d, reporting_eq_ok.mpr (makeDirectories_of_directory hroot htop),
    reporting_eq_error.mpr ⟨.notFound, hcopy, rfl⟩⟩)

/-- **A restore that fails overwrites a file**: it stops after one that has changed. -/
theorem restore_failure_overwrites : ∃ d d' e, oneFileStore.restore "rp-7-0" d = .error e d' ∧
    d.read "/r/a" = .ok "new".toUTF8 ∧ d'.read "/r/a" = .ok "old".toUTF8 ∧ ¬d.SameContents d' ∧
    ∃ point done, done ≠ [] ∧ oneFileStore.StopsAfter point done d e d' := by
  generalize hlog : (RestorePoint.logText [twoFilesPoint]).toUTF8 = log
  have hfirst := twoFiles_first log
  have hsecond := twoFiles_second log
  have hfile : (twoFiles log).lookup (["r", "s"] ++ [logName]) = some (.file log) := by cbv
  have hpath : (twoFiles log).locate true oneFileStore.logPath = .ok (["r", "s"] ++ [logName]) :=
    locate_join true (show (twoFiles log).locate true "/r/s" = .ok ["r", "s"] by cbv) (by cbv)
      isName_logName
      (by rw [hfile]; simp)
  have hload : oneFileStore.load (twoFiles log) = [twoFilesPoint] :=
    load_of_text hpath (by rw [hlog, hfile]) (by decide)
  have hnew : (twoFiles log).read "/r/a" = .ok "new".toUTF8 := by cbv
  have hold :
      ((twoFiles log).put ["r", "a"] (.file "old".toUTF8)).read "/r/a" = .ok "old".toUTF8 := by cbv
  have hput := lookup_put (d := twoFiles log) (List.cons_ne_nil "r" ["a"]) (.file "old".toUTF8)
  have hbefore : (twoFiles log).lookup ["r", "a"] = some (.file "new".toUTF8) := by cbv
  generalize (twoFiles log).put ["r", "a"] (.file "old".toUTF8) = d' at hfirst hsecond hold hput
  have hrun : oneFileStore.putBack twoFilesPoint (twoFiles log) =
      .error (.putBack "b" "rp-7-0" .notFound) d' := by
    rw [putBack, List.forM_eq_forM, twoFilesPoint, List.forM_cons, List.forM_cons]
    exact bind_eq_error.mpr (.inr ⟨(), d', hfirst, bind_eq_error.mpr (.inl hsecond)⟩)
  have hrestore : oneFileStore.restore "rp-7-0" (twoFiles log) =
      .error (.putBack "b" "rp-7-0" .notFound) d' := by
    refine restore_eq_error_iff.mpr (.inr ⟨twoFilesPoint, ?_, .inr ⟨by cbv, hrun⟩⟩)
    simp only [find, hload]
    rfl
  have hchanged : ¬(twoFiles log).SameContents d' := by
    intro hsame
    have hafter := (hsame ["r", "a"] _).mpr hbefore
    rw [hput, if_pos rfl] at hafter
    exact absurd hafter (by decide)
  refine ⟨twoFiles log, d', _, hrestore, hnew, hold, hchanged, ?_⟩
  -- had the run failed earlier, no file would have changed
  rcases (restore_failure hrestore).1 with ⟨rfl, -⟩ | ⟨point, done, -, -, hstops, -, hiff, -⟩
  · exact absurd (fun _ _ => .rfl) hchanged
  · refine ⟨point, done, ?_, hstops⟩
    rintro rfl
    exact hchanged (hiff.mpr fun _ ha => absurd ha List.not_mem_nil)

end RestoreStore

end CodeAtlas
