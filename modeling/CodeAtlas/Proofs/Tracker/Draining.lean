import CodeAtlas.Proofs.Tracker.Waking

/-!
# What is remembered is flushed in the end

That some task acts while something is remembered does not say yet that this leads anywhere: the
loop could be refused and wake up for ever. The headline theorem is **`drained`**: while nobody
reports a change or asks for a flush, only so many actions are possible, and once none is possible
any more, whatever the time, nothing is remembered.

The bound is a measure of the work before everyone (`System.work`), which every action takes
something away from (`Effect.work_lt`). A remembered name is worth a flush of the loop; an announced
change is worth a quiet period and what comes after it; an announced end of a flush is worth another
attempt of the loop.
-/

namespace CodeAtlas.Tracker

open Std

/-! ## The work before everyone -/

/-- The work of the loop after a flush. -/
def workAfter : FlushOutcome → Nat
  | .idle => 1
  | .busy _ => 7
  | _ => 10

/-- The work of a flush, with that of whoever waits for it. -/
def Flush.work (after : FlushOutcome → Nat) : Flush → Nat
  | .starting => 9
  | .refused => 8
  | .holding => 8
  | .refreshing _ => 17
  | .releasing outcome => after outcome + 6
  | .announcing outcome => after outcome + 5
  | .done outcome => after outcome

/-- The work of the loop. -/
def Loop.work : Loop → Nat
  | .waiting => 0
  | .quiet _ => 10
  | .flushing f => f.work workAfter
  | .blocked => 6

/-- The work of a report, with what comes of it. -/
def Report.work : Report → Nat
  | .inserting _ => 23
  | .announcing _ => 12
  | .done _ => 0

/-- The work that is remembered or announced. -/
def load (t : Tracker) : Nat := 10 * t.pending.size + 11 * t.wake.toNat + 4 * t.idle.toNat

/-- The work before everyone. Nobody waits for a flush but the loop for its own. -/
def System.work (s : System) : Nat :=
  s.tracker.load + s.loop.work + (s.flushes.map (Flush.work fun _ => 0)).sum +
    (s.reports.map Report.work).sum

/-! ## Every action does some work -/

/-- As many names are left as are not taken out. -/
theorem size_foldl_erase {names : List String} {pending : TreeSet String} (hnodup : names.Nodup)
    (hnames : ∀ name ∈ names, name ∈ pending) :
    (names.foldl (fun set name => set.erase name) pending).size + names.length = pending.size := by
  induction names generalizing pending with
  | nil => rfl
  | cons first rest ih =>
    obtain ⟨hfirst, hrest⟩ := List.nodup_cons.mp hnodup
    have hmem : first ∈ pending := hnames first (List.mem_cons_self ..)
    have hsize : (pending.erase first).size = pending.size - 1 := by
      rw [TreeSet.size_erase, if_pos (TreeSet.contains_iff_mem.mpr hmem)]
    have hpos : pending.size ≠ 0 := by
      intro hzero
      have hempty : pending.isEmpty = true := by
        rw [TreeSet.isEmpty_eq_size_eq_zero, hzero]
        rfl
      exact TreeSet.isEmpty_iff_forall_not_mem.mp hempty first hmem
    have hothers : ∀ name ∈ rest, name ∈ pending.erase first := by
      intro name hname
      rw [TreeSet.mem_erase]
      refine ⟨?_, hnames name (List.mem_cons_of_mem _ hname)⟩
      rw [ne_eq, LawfulEqCmp.compare_eq_iff_eq]
      rintro rfl
      exact hfirst hname
    have hleft := ih hrest hothers
    rw [List.foldl_cons, List.length_cons]
    omega

/-- A batch that is taken out is left out. -/
theorem size_takeBatch (t : Tracker) (size : Nat) :
    (t.takeBatch size).2.pending.size + (t.batch size).length = t.pending.size :=
  size_foldl_erase (nodup_batch t size) fun _ => mem_pending_of_mem_batch

/-- An action of a flush does some work, for whoever waits for it. -/
theorem Flush.Action.work_lt {size : Nat} {result : RefreshResult} {t t' : Tracker} {f f' : Flush}
    (h : f.Action size result t f' t') (after : FlushOutcome → Nat)
    (hafter : ∀ outcome, after outcome ≤ workAfter outcome) :
    t'.load + f'.work after < t.load + f.work after := by
  cases h with
  | took => simp [Flush.work, load]
  | refused => simp [Flush.work]
  | counted =>
    have hbusy := hafter (.busy t.pending.size)
    simp only [Flush.work, workAfter] at hbusy ⊢
    omega
  | idled =>
    have hidle := hafter .idle
    simp only [Flush.work, workAfter] at hidle ⊢
    omega
  | began hsome =>
    have hsize := size_takeBatch t size
    have hpos := List.length_pos_iff.mpr hsome
    have hwake : (t.takeBatch size).2.wake = t.wake := rfl
    have hidle : (t.takeBatch size).2.idle = t.idle := rfl
    simp only [Flush.work, load, hwake, hidle]
    omega
  | ended batch =>
    have houtcome : workAfter (t.record result).1 = 10 := by cases result <;> rfl
    have hle := hafter (t.record result).1
    simp only [Flush.work, load, pending_record, wake_record, idle_record]
    omega
  | freed outcome => simp [Flush.work, load, Tracker.free]
  | announced outcome =>
    have hidle := Bool.toNat_le t.notifyIdle.idle
    have hsame : t.notifyIdle.pending = t.pending ∧ t.notifyIdle.wake = t.wake := ⟨rfl, rfl⟩
    simp only [Flush.work, load, hsame.1, hsame.2]
    omega

/-- After a flush the loop has less to do. -/
theorem Loop.work_next (outcome : FlushOutcome) : (Loop.next outcome).work < workAfter outcome := by
  unfold Loop.next
  split
  · cases outcome <;> simp [Loop.work, workAfter]
  · next hsome =>
    cases outcome with
    | idle => exact absurd rfl hsome
    | _ => simp [FlushOutcome.isBusy, Loop.work, Flush.work, workAfter]

namespace System

/-- The work of a task that acts changes, the work of the others does not. -/
theorem sum_map_set {α : Type} (weight : α → Nat) {xs : List α} {i : Nat} {x : α}
    (h : xs[i]? = some x)
    (y : α) : ((xs.set i y).map weight).sum + weight x = (xs.map weight).sum + weight y := by
  obtain ⟨before, after, hold, hset⟩ := exists_split h
  rw [hset, hold]
  simp only [List.map_append, List.map_cons, List.sum_append, List.sum_cons]
  omega

/-- **Every action does some work.** -/
theorem Effect.work_lt {o : TrackerOptions} {s s' : System} {m : Move} {new : List Event}
    (h : s.Effect o m s' new) (hm : m.isAction = true) : s'.work < s.work := by
  cases h with
  | reported name => cases hm
  | asked => cases hm
  | waited millis => cases hm
  | @remembered i name hreport =>
    have hreports := sum_map_set Report.work hreport (.announcing name)
    have hsize : (s.tracker.insert name).pending.size ≤ s.tracker.pending.size + 1 :=
      TreeSet.size_insert_le
    have hwake : (s.tracker.insert name).wake = s.tracker.wake := rfl
    have hidle : (s.tracker.insert name).idle = s.tracker.idle := rfl
    simp only [System.work, load, hwake, hidle, Report.work] at hreports ⊢
    omega
  | @announced i name hreport =>
    have hreports := sum_map_set Report.work hreport (.done name)
    simp only [System.work, load, Tracker.notifyWake, Bool.toNat_true, Report.work] at hreports ⊢
    omega
  | @flushed i f f' result t hflush haction =>
    have hflushes := sum_map_set (Flush.work fun _ => 0) hflush f'
    have hless := haction.work_lt (fun _ => 0) fun _ => Nat.zero_le _
    simp only [System.work]
    omega
  | looped hloop haction =>
    have hless := haction.work_lt workAfter fun _ => Nat.le_refl _
    simp only [System.work, hloop, Loop.work]
    omega
  | heard hloop hwake =>
    simp only [System.work, load, hwake, Bool.toNat_true, Bool.toNat_false, Loop.work]
    omega
  | ripened hloop =>
    simp only [System.work, hloop, Loop.work, Flush.work]
    omega
  | @turned result outcome hloop =>
    have hless := Loop.work_next outcome
    simp only [System.work, hloop, Loop.work, Flush.work] at hless ⊢
    omega
  | resumed hloop hidle =>
    simp only [System.work, load, hloop, hidle, Bool.toNat_true, Bool.toNat_false, Loop.work,
      Flush.work]
    omega

/-! ## Draining -/

/-- Moves that are possible one after the other, with no change reported and no flush asked for. -/
def Unprompted (o : TrackerOptions) (s : System) : List Move → Prop
  | [] => True
  | m :: moves => (m.isAction = true ∨ ∃ millis, m = .wait millis) ∧ (s.move? o m).isSome = true ∧
    Unprompted o (s.move o m) moves

/-- Without prompting there are only so many actions. -/
theorem Unprompted.countP_le {o : TrackerOptions} {s : System} {moves : List Move}
    (h : Unprompted o s moves) :
    moves.countP Move.isAction + (s.run o moves).work ≤ s.work := by
  induction moves generalizing s with
  | nil => exact (Nat.zero_add _).le
  | cons m moves ih =>
    obtain ⟨hm, hsome, hrest⟩ := h
    have hle := ih hrest
    rw [run, List.foldl_cons, ← run, List.countP_cons]
    rcases hm with hm | ⟨millis, rfl⟩
    · obtain ⟨s', hs'⟩ := Option.isSome_iff_exists.mp hsome
      have hless := (effect_of_move? hs').work_lt hm
      rw [move, hs', Option.getD_some] at hle ⊢
      rw [if_pos hm]
      omega
    · exact hle

/-- **What is remembered is flushed in the end.** After any run, if no more changes are reported and
no more flushes are asked for, there are only so many actions; and as soon as none is possible any
more, however much time goes by, nothing is remembered. -/
theorem drained (o : TrackerOptions) (hsize : 1 ≤ o.batchSize) (enabled : Bool)
    (moves more : List Move) (hmore : Unprompted o ((start enabled).run o moves) more) :
    let s := (start enabled).run o moves
    more.countP Move.isAction ≤ s.work ∧
    ((∀ millis m, m.isAction = true → ((s.run o more).move o (.wait millis)).move? o m = none) →
      (s.run o more).tracker.pending.isEmpty = true) := by
  intro s
  refine ⟨(Nat.le_add_right _ _).trans hmore.countP_le, fun hstuck => ?_⟩
  have hrun : s.run o more = (start enabled).run o (moves ++ more) := List.foldl_append.symm
  have hawake : (s.run o more).Awake := by
    rw [hrun]
    exact awake_run hsize enabled (moves ++ more)
  by_contra hsome
  obtain ⟨millis, m, hm, hpossible⟩ := hawake.acts (.error "") (Bool.eq_false_iff.mpr hsome)
  rw [hstuck millis m hm] at hpossible
  cases hpossible

end System

end CodeAtlas.Tracker
