import CodeAtlas.Proofs.Disk.Links
import CodeAtlas.Restore.Store

/-!
# What an eviction takes

Setup: evicting a point removes the tree at the path of its id in the directory of the store.
`Disk.Takes` says what goes with the tree at a path, and **`RestoreStore.lookup_evict_of_taken`**
and **`RestoreStore.lookup_evict_of_not_taken`** say of a run of evictions that exactly what one of
them takes is gone. The ids decide where the trees lie: **`RestoreStore.prefix_of_taken`** says that
ids which are names lead to trees in the store.
-/

namespace CodeAtlas

open CodeAtlas.Disk CodeAtlas.Path

namespace Disk

variable {d : Disk} {place p : Place} {path : String}

/-- What stands at each place after everything below one is gone. -/
theorem lookup_clearBelow (place p : Place) :
    (d.clearBelow place).lookup p = if place <+: p ∧ place ≠ p then none else d.lookup p := by
  by_cases hp : p = []
  · subst hp
    rw [if_neg fun h => h.2 (List.prefix_nil.mp h.1)]
    rfl
  · have hbelow : (place.isPrefixOf p && place != p) = decide (place <+: p ∧ place ≠ p) := by
      rw [Bool.eq_iff_iff, Bool.and_eq_true, List.isPrefixOf_iff_prefix, bne_iff_ne,
        decide_eq_true_iff]
    simp only [lookup, clearBelow, Std.TreeMap.get?_eq_getElem?, Std.TreeMap.getElem?_filter',
      List.isEmpty_eq_false_iff.mpr hp, Bool.false_eq_true, if_false, hbelow]
    cases d.entries[p]? <;> by_cases h : place <+: p ∧ place ≠ p <;> simp [h]

/-- What stands at `p` goes with the tree at a path: a link or a directory stands at the path, and
`p` lies below it or is it. A directory that the path names with dots, or the top, stays itself. -/
def Takes (d : Disk) (path : String) (p : Place) : Prop :=
  ∃ place, d.locate false path = .ok place ∧ place <+: p ∧
    ((∃ target, d.lookup place = some (.link target)) ∨
      d.lookup place = some .directory ∧ ((endsInDots path || place.isEmpty) = true → place ≠ p))

/-- **A removal** leaves nothing of what goes with the tree, and the rest as it was. -/
theorem lookup_after_removeTree (d : Disk) (path : String) (p : Place) :
    (Takes d path p → ((removeTree path).after d).lookup p = none) ∧
      (¬Takes d path p → ((removeTree path).after d).lookup p = d.lookup p) := by
  rw [Change.after, removeTree]
  cases hlocate : d.locate false path with
  | error e =>
    refine ⟨?_, fun _ => rfl⟩
    rintro ⟨place, h, -⟩
    rw [hlocate] at h
    cases h
  | ok place =>
    simp only [Takes, hlocate, Except.ok.injEq, exists_eq_left']
    cases hentry : d.lookup place with
    | none => simp
    | some entry =>
      cases entry with
      | file bytes => simp
      | link target =>
        have hplace : place ≠ [] := by
          rintro rfl
          cases hentry
        simp only [lookup_cut hplace]
        split_ifs with hp <;> simp [hp]
      | directory =>
        simp only [Option.some.injEq, reduceCtorEq, exists_false, true_and, false_or]
        split_ifs with hkept
        · simp only [lookup_clearBelow]
          split_ifs with hp <;> simp [hp, hkept]
        · have hplace : place ≠ [] := by
            rintro rfl
            simp at hkept
          simp only [lookup_cut hplace]
          split_ifs with hp <;> simp [hp, hkept]

/-- What stands on the second disk stands on the first. -/
def Shrinks (d d' : Disk) : Prop :=
  ∀ place, d'.lookup place = d.lookup place ∨ d'.lookup place = none

theorem Shrinks.trans {d' d'' : Disk} (h : d.Shrinks d') (h' : d'.Shrinks d'') : d.Shrinks d'' := by
  intro place
  rcases h' place with hsame' | hnone'
  · exact (h place).imp hsame'.trans hsame'.trans
  · exact .inr hnone'

theorem Shrinks.lookup_of_some {d' : Disk} (h : d.Shrinks d') {entry : Entry}
    (hentry : d'.lookup place = some entry) : d.lookup place = some entry := by
  rcases h place with hsame | hnone
  · rw [← hsame, hentry]
  · rw [hnone] at hentry
    cases hentry

/-- A removal only takes away. -/
theorem shrinks_after_removeTree (d : Disk) (path : String) :
    d.Shrinks ((removeTree path).after d) := by
  intro p
  by_cases htakes : Takes d path p
  · exact .inr ((lookup_after_removeTree d path p).1 htakes)
  · exact .inl ((lookup_after_removeTree d path p).2 htakes)

/-- Nothing is followed from where nothing stands. -/
theorem Leads.of_none {follow : Bool} {links : Nat} {here : Place} {rest : List String}
    (h : Leads d follow links here rest place) (hhere : d.lookup here = none) :
    rest = [] ∧ place = here := by
  cases h with
  | arrive => exact ⟨rfl, rfl⟩
  | idle directory | up directory | stay directory | jump directory | enter directory =>
    rw [hhere] at directory
    cases directory

/-- A path that leads to something led there before other things were taken away: where a link was
taken away, the path would end with nothing. -/
theorem Leads.of_shrinks {d' : Disk} (hd : d.Shrinks d') {follow : Bool} {links : Nat}
    {here : Place} {rest : List String} (h : Leads d' follow links here rest place)
    (hplace : (d'.lookup place).isSome) :
    Leads d follow links here rest place := by
  induction h with
  | arrive => exact .arrive
  | idle directory idle _ ih => exact .idle (hd.lookup_of_some directory) idle (ih hplace)
  | up directory _ ih => exact .up (hd.lookup_of_some directory) (ih hplace)
  | stay directory idle up link last =>
    exact .stay (hd.lookup_of_some directory) idle up (hd.lookup_of_some link) last
  | jump directory idle up link inner _ ih =>
    exact .jump (hd.lookup_of_some directory) idle up (hd.lookup_of_some link) inner (ih hplace)
  | @enter _ here _ component _ directory idle up link go ih =>
    refine .enter (hd.lookup_of_some directory) idle up (fun target htarget => ?_) (ih hplace)
    rcases hd (here ++ [component]) with hsame | hnone
    · exact link target (hsame.trans htarget)
    · obtain ⟨-, rfl⟩ := go.of_none hnone
      rw [hnone] at hplace
      cases hplace

end Disk

namespace RestoreStore

variable {s : RestoreStore} {d : Disk} {points : List RestorePoint} {p vault : Place}

/-- The disk after the copies of a point are removed. -/
def dropped (s : RestoreStore) (d : Disk) (point : RestorePoint) : Disk :=
  (removeTree (s.pointDirectory point.id)).after d

/-- Removing the copies of a point always goes on. -/
theorem forget_eq (s : RestoreStore) (d : Disk) (point : RestorePoint) :
    s.forget point d = .ok () (s.dropped d point) := by
  rw [forget, dropped, Change.after]
  cases removeTree (s.pointDirectory point.id) d <;> rfl

/-- The disk after some points are evicted, one after the other. -/
def evict (s : RestoreStore) (points : List RestorePoint) (d : Disk) : Disk :=
  points.foldl s.dropped d

@[simp] theorem evict_cons (s : RestoreStore) (point : RestorePoint) (points : List RestorePoint)
    (d : Disk) : s.evict (point :: points) d = s.evict points (s.dropped d point) := rfl

theorem forM_forget (s : RestoreStore) (points : List RestorePoint) (d : Disk) :
    points.forM s.forget d = .ok () (s.evict points d) := by
  induction points generalizing d with
  | nil => rfl
  | cons point points ih =>
    simp only [List.forM_eq_forM] at ih
    simp only [List.forM_eq_forM, List.forM_cons, bind, EStateM.bind, forget_eq, ih]
    rfl

/-- One of the evictions takes what stands at `p`, on the disk that the evictions before it leave.
-/
def Taken (s : RestoreStore) (p : Place) : List RestorePoint → Disk → Prop
  | [], _ => False
  | point :: points, d => Takes d (s.pointDirectory point.id) p ∨
      s.Taken p points (s.dropped d point)

/-- Where nothing stands nothing is put. -/
theorem lookup_evict_of_none (h : d.lookup p = none) : (s.evict points d).lookup p = none := by
  induction points generalizing d with
  | nil => exact h
  | cons point points ih =>
    refine ih ?_
    by_cases htakes : Takes d (s.pointDirectory point.id) p
    · exact (lookup_after_removeTree d _ p).1 htakes
    · rw [dropped, (lookup_after_removeTree d _ p).2 htakes, h]

/-- **What one of the evictions takes is gone.** -/
theorem lookup_evict_of_taken (h : s.Taken p points d) : (s.evict points d).lookup p = none := by
  induction points generalizing d with
  | nil => exact absurd h id
  | cons point points ih =>
    rcases h with htakes | hlater
    · rw [evict_cons]
      exact lookup_evict_of_none ((lookup_after_removeTree d _ p).1 htakes)
    · exact ih hlater

/-- **What no eviction takes stays as it was.** -/
theorem lookup_evict_of_not_taken (h : ¬s.Taken p points d) :
    (s.evict points d).lookup p = d.lookup p := by
  induction points generalizing d with
  | nil => rfl
  | cons point points ih =>
    obtain ⟨htakes, hlater⟩ := not_or.mp h
    rw [← (lookup_after_removeTree d (s.pointDirectory point.id) p).2 htakes]
    exact ih hlater

/-- **With ids that are names** the evictions take only what lies under these names where the path
of the store leads. -/
theorem prefix_of_taken (hids : ∀ point ∈ points, IsName point.id)
    (haims : d.Aims s.directory vault)
    (h : s.Taken p points d) : ∃ point ∈ points, vault ++ [point.id] <+: p := by
  -- the disks in between lack something at most
  suffices hall : ∀ d', d.Shrinks d' → s.Taken p points d' →
    ∃ point ∈ points, vault ++ [point.id] <+: p from hall d (fun _ => .inl rfl) h
  clear h
  induction points with
  | nil => exact fun _ _ htaken => absurd htaken id
  | cons point points ih =>
    intro d' hd htaken
    rcases htaken with ⟨place, hlocate, hprefix, -⟩ | hlater
    · obtain ⟨home, hhome, hdirectory, hplace⟩ :=
        locate_join_inv hlocate (hids point List.mem_cons_self)
      have hfound : d.locate true s.directory = .ok home :=
        locate_iff_leads.mpr ((locate_iff_leads.mp hhome).of_shrinks hd (by rw [hdirectory]; rfl))
      rw [hplace (.inl rfl), haims d (.refl d) home hfound] at hprefix
      exact ⟨point, List.mem_cons_self, hprefix⟩
    · obtain ⟨point', hpoint', hprefix⟩ := ih (fun q hq => hids q (List.mem_cons_of_mem _ hq)) _
        (hd.trans (shrinks_after_removeTree d' _)) hlater
      exact ⟨point', List.mem_cons_of_mem _ hpoint', hprefix⟩

/-! ## Logging -/

/-- The points that go when a point is logged: the oldest ones beyond the number that is kept. -/
def evicted (s : RestoreStore) (d : Disk) (point : RestorePoint) : List RestorePoint :=
  (s.load d ++ [point]).take ((s.load d ++ [point]).length - s.maxPoints)

/-- The points that stay. -/
def staying (s : RestoreStore) (d : Disk) (point : RestorePoint) : List RestorePoint :=
  (s.load d ++ [point]).drop ((s.load d ++ [point]).length - s.maxPoints)

/-- Logging a point evicts some points and writes the log of the others. -/
theorem log_eq (s : RestoreStore) (d : Disk) (point : RestorePoint) :
    s.log point d = s.save (s.staying d point) (s.evict (s.evicted d point) d) := by
  have hread : s.log point d =
      ((s.evicted d point).forM s.forget >>= fun _ => s.save (s.staying d point)) d := rfl
  simp only [hread, bind, EStateM.bind, forM_forget]

/-- A call that creates a point gets as far as logging `point` on the disk `e`: the files of the
point are there, and they have been copied. -/
structure Logs (s : RestoreStore) (now number : Nat) (paths : List String) (message : String)
    (d : Disk) (point : RestorePoint) (e : Disk) : Prop where
  /-- the files are those of the paths -/
  names : s.namesOf d paths = .ok point.files
  /-- the point is that of the call -/
  point_eq : point = ⟨idOf now number, now, point.files, message⟩
  /-- its files have been copied -/
  copied : s.backUp point.id point.files d = .ok () e

end RestoreStore

end CodeAtlas
