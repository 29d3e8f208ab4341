import CodeAtlas.Tracker.History
import Mathlib.Tactic

/-!
# What one action can do

Reports, flushes and the loop act one at a time on a tracker that they share. Here it is said once
what an action of a flush can do (`Flush.Action`) and what a move can do to the whole system
(`System.Effect`), with all that makes the action possible; everything else about runs is derived
from these two.

A flush gives the flag back and announces it in two actions, as a report remembers and announces in
two: in between others act on a tracker that is free and has not said so.

* **`effect_of_move?`** — the effects of a move.
* **`run_induction`** — what every effect keeps is kept by a run, together with what the run leaves
  behind.
-/

namespace CodeAtlas.Tracker

open Std

/-! ## Names that are remembered -/

@[simp] theorem mem_insert {t : Tracker} {name other : String} :
    name ∈ (t.insert other).pending ↔ name = other ∨ name ∈ t.pending := by
  simp only [Tracker.insert, TreeSet.mem_insert, LawfulEqCmp.compare_eq_iff_eq]
  tauto

/-- What is left after some names are taken out. -/
theorem mem_foldl_erase {names : List String} {pending : TreeSet String} {name : String} :
    name ∈ names.foldl (fun set name => set.erase name) pending ↔
      name ∈ pending ∧ name ∉ names := by
  induction names generalizing pending with
  | nil => simp
  | cons first rest ih =>
    rw [List.foldl_cons, ih, TreeSet.mem_erase, List.mem_cons]
    simp only [ne_eq, LawfulEqCmp.compare_eq_iff_eq]
    tauto

/-- A batch is what is taken out. -/
theorem mem_takeBatch {t : Tracker} {size : Nat} {name : String} :
    name ∈ (t.takeBatch size).2.pending ↔ name ∈ t.pending ∧ name ∉ t.batch size :=
  mem_foldl_erase

/-- Only remembered names are in a batch. -/
theorem mem_pending_of_mem_batch {t : Tracker} {size : Nat} {name : String}
    (h : name ∈ t.batch size) :
    name ∈ t.pending :=
  TreeSet.mem_toList.mp (List.mem_of_mem_take h)

/-- No name is twice in a batch. -/
theorem nodup_batch (t : Tracker) (size : Nat) : (t.batch size).Nodup := by
  have hdistinct : t.pending.toList.Nodup := by
    refine List.Pairwise.imp (fun h => ?_) (TreeSet.distinct_toList (t := t.pending))
    rintro rfl
    exact h compare_self
  exact hdistinct.sublist (List.take_sublist _ _)

/-- A batch is bounded. -/
theorem length_batch_le (t : Tracker) (size : Nat) : (t.batch size).length ≤ size := by
  simp [Tracker.batch]

/-- If there is nothing to take although something may be taken, nothing is remembered. -/
theorem isEmpty_of_batch_eq_nil {t : Tracker} {size : Nat} (hsize : 1 ≤ size)
    (h : t.batch size = []) : t.pending.isEmpty := by
  rcases List.take_eq_nil_iff.mp h with hzero | hnil
  · omega
  · rw [← TreeSet.isEmpty_toList, hnil]
    rfl

@[simp] theorem pending_record (t : Tracker) (result : RefreshResult) :
    (t.record result).2.pending = t.pending := by
  cases result <;> rfl

@[simp] theorem busy_record (t : Tracker) (result : RefreshResult) :
    (t.record result).2.busy = t.busy := by
  cases result <;> rfl

@[simp] theorem wake_record (t : Tracker) (result : RefreshResult) :
    (t.record result).2.wake = t.wake := by
  cases result <;> rfl

@[simp] theorem idle_record (t : Tracker) (result : RefreshResult) :
    (t.record result).2.idle = t.idle := by
  cases result <;> rfl

@[simp] theorem flushes_record (t : Tracker) (result : RefreshResult) :
    (t.record result).2.flushes = t.flushes + 1 := by
  cases result <;> rfl

@[simp] theorem refreshed_record (t : Tracker) (result : RefreshResult) :
    (t.record result).2.refreshed = t.refreshed + refreshedFiles result := by
  cases result <;> rfl

@[simp] theorem remaining_record (t : Tracker) (result : RefreshResult) :
    (t.record result).1.remaining = t.pending.size := by
  cases result <;> rfl

/-! ## Actions of a flush -/

/-- The actions of a flush: what it comes to, and what becomes of the tracker. `result` is that of
the refresh that it waits for. -/
inductive Flush.Action (size : Nat) (result : RefreshResult) (t : Tracker) :
    Flush → Flush → Tracker → Prop
  /-- it takes the flag -/
  | took (hfree : t.busy = false) : Action size result t .starting .holding { t with busy := true }
  /-- the flag was taken -/
  | refused (hbusy : t.busy = true) : Action size result t .starting .refused t
  /-- it says how much is left to whoever has the flag -/
  | counted : Action size result t .refused (.done (.busy t.pending.size)) t
  /-- there is no batch -/
  | idled (hnone : t.batch size = []) : Action size result t .holding (.releasing .idle) t
  /-- the refresh of a batch begins -/
  | began (hsome : t.batch size ≠ []) :
    Action size result t .holding (.refreshing (t.batch size)) (t.takeBatch size).2
  /-- the refresh of a batch ends -/
  | ended (batch : List String) :
    Action size result t (.refreshing batch) (.releasing (t.record result).1) (t.record result).2
  /-- it gives the flag back -/
  | freed (outcome : FlushOutcome) :
    Action size result t (.releasing outcome) (.announcing outcome) t.free
  /-- it announces that -/
  | announced (outcome : FlushOutcome) :
    Action size result t (.announcing outcome) (.done outcome) t.notifyIdle

/-- **What an action of a flush can do.** -/
theorem Flush.action_of_step {size : Nat} {result : RefreshResult} {t t' : Tracker} {f f' : Flush}
    (h : f.step size (fun _ => some result) t = some (f', t')) : f.Action size result t f' t' := by
  cases f with
  | starting =>
    simp only [Flush.step] at h
    split at h
    · next hbusy =>
      cases h
      exact .refused hbusy
    · next hfree =>
      cases h
      exact .took (Bool.eq_false_iff.mpr hfree)
  | refused =>
    cases h
    exact .counted
  | holding =>
    simp only [Flush.step, Flush.takeBatch] at h
    split at h
    · next hnone =>
      cases h
      have hnone : t.batch size = [] := List.isEmpty_iff.mp hnone
      -- taking nothing out leaves the tracker as it is
      have hsame : (t.takeBatch size).2 = t := by
        simp only [Tracker.takeBatch, hnone, List.foldl_nil]
      rw [hsame]
      exact .idled hnone
    · next hsome =>
      cases h
      exact .began (mt List.isEmpty_iff.mpr hsome)
  | refreshing batch =>
    cases h
    exact .ended batch
  | releasing outcome =>
    cases h
    exact .freed outcome
  | announcing outcome =>
    cases h
    exact .announced outcome
  | done outcome => cases h

/-! ## Moves of the system -/

/-- After a flush the loop does not wait for a refresh. -/
theorem Loop.batch?_next (outcome : FlushOutcome) : (Loop.next outcome).batch? = none := by
  unfold Loop.next
  split
  · rfl
  · split <;> rfl

namespace System

/-- A report or a flush that acts is one of a list; in its place stands what it comes to. -/
theorem exists_split {α : Type} {xs : List α} {i : Nat} {x : α} (h : xs[i]? = some x) :
    ∃ before after, xs = before ++ x :: after ∧ ∀ y, xs.set i y = before ++ y :: after := by
  obtain ⟨hi, rfl⟩ := List.getElem?_eq_some_iff.mp h
  refine ⟨xs.take i, xs.drop (i + 1), ?_,
    fun y => List.set_eq_take_append_cons_drop.trans (if_pos hi)⟩
  rw [List.getElem_cons_drop, List.take_append_drop]

/-- What a move can do to the system, with what is seen of it. -/
inductive Effect (o : TrackerOptions) (s : System) : Move → System → List Event → Prop
  /-- a report comes -/
  | reported (name : String) :
    Effect o s (.report name) { s with reports := s.reports ++ [.inserting name] } []
  /-- a flush comes -/
  | asked : Effect o s .flush { s with flushes := s.flushes ++ [.starting] } []
  /-- a report remembers its name -/
  | remembered {i : Nat} {name : String} (hreport : s.reports[i]? = some (.inserting name)) :
    Effect o s (.stepReport i) { s with
      tracker := s.tracker.insert name
      reports := s.reports.set i (.announcing name) } [.remembered i name]
  /-- a report announces its name -/
  | announced {i : Nat} {name : String} (hreport : s.reports[i]? = some (.announcing name)) :
    Effect o s (.stepReport i) { s with
      tracker := s.tracker.notifyWake
      reports := s.reports.set i (.done name) } []
  /-- a flush acts -/
  | flushed {i : Nat} {f f' : Flush} {result : RefreshResult} {t : Tracker}
    (hflush : s.flushes[i]? = some f) (haction : f.Action o.batchSize result s.tracker f' t) :
    Effect o s (.stepFlush i result) { s with tracker := t, flushes := s.flushes.set i f' }
      (Event.ofBatches f.batch? f'.batch? result)
  /-- the flush of the loop acts -/
  | looped {f f' : Flush} {result : RefreshResult} {t : Tracker} (hloop : s.loop = .flushing f)
    (haction : f.Action o.batchSize result s.tracker f' t) :
    Effect o s (.stepLoop result) { s with tracker := t, loop := .flushing f' }
      (Event.ofBatches f.batch? f'.batch? result)
  /-- the loop hears of a change -/
  | heard {result : RefreshResult} (hloop : s.loop.flush? = none) (hwake : s.tracker.wake = true) :
    Effect o s (.stepLoop result) { s with
      tracker := { s.tracker with wake := false }
      loop := .quiet (s.now + o.debounce) } []
  /-- the loop has waited long enough -/
  | ripened {result : RefreshResult} {deadline : Nat} (hloop : s.loop = .quiet deadline) :
    Effect o s (.stepLoop result) { s with loop := .flushing .starting } []
  /-- a flush of the loop is over -/
  | turned {result : RefreshResult} {outcome : FlushOutcome}
    (hloop : s.loop = .flushing (.done outcome)) :
    Effect o s (.stepLoop result) { s with loop := Loop.next outcome } []
  /-- the loop hears that another flush is over -/
  | resumed {result : RefreshResult} (hloop : s.loop = .blocked) (hidle : s.tracker.idle = true) :
    Effect o s (.stepLoop result) { s with
      tracker := { s.tracker with idle := false }
      loop := .flushing .starting } []
  /-- time goes by -/
  | waited (millis : Nat) : Effect o s (.wait millis) { s with now := s.now + millis } []

/-- What a step of the loop can do. -/
theorem effect_of_stepLoop {o : TrackerOptions} {s : System} {result : RefreshResult} {loop : Loop}
    {t : Tracker} (h : s.loop.step o s.now (fun _ => some result) s.tracker = some (loop, t)) :
    s.Effect o (.stepLoop result) { s with tracker := t, loop := loop }
      (Event.ofBatches s.loop.batch? loop.batch? result) := by
  generalize hloop : s.loop = l at h
  cases l with
  | waiting =>
    simp only [Loop.step] at h
    split at h
    · next hwake =>
      cases h
      exact .heard (by rw [hloop]; rfl) hwake
    · cases h
  | quiet deadline =>
    simp only [Loop.step] at h
    split at h
    · next hwake =>
      cases h
      exact .heard (by rw [hloop]; rfl) hwake
    · split at h
      · cases h
        exact .ripened hloop
      · cases h
  | flushing f =>
    cases f with
    | done outcome =>
      cases h
      rw [Loop.batch?_next]
      exact .turned hloop
    | _ =>
      simp only [Loop.step] at h
      obtain ⟨⟨f', t⟩, hflush, h⟩ := Option.map_eq_some_iff.mp h
      cases h
      exact .looped hloop (Flush.action_of_step hflush)
  | blocked =>
    simp only [Loop.step] at h
    split at h
    · next hidle =>
      cases h
      exact .resumed hloop hidle
    · cases h

/-- **What a move can do.** -/
theorem effect_of_move? {o : TrackerOptions} {s s' : System} {m : Move}
    (h : s.move? o m = some s') :
    s.Effect o m s' (s.events o m) := by
  have hmove : s.move o m = s' := by rw [move, h, Option.getD_some]
  cases m with
  | report name =>
    cases h
    exact .reported name
  | flush =>
    cases h
    exact .asked
  | stepReport i =>
    obtain ⟨report, hreport, h⟩ := Option.bind_eq_some_iff.mp h
    obtain ⟨⟨report', t⟩, hstep, h⟩ := Option.bind_eq_some_iff.mp h
    cases h
    simp only [events, hreport]
    cases report with
    | inserting name =>
      cases hstep
      exact .remembered hreport
    | announcing name =>
      cases hstep
      exact .announced hreport
    | done name => cases hstep
  | stepFlush i result =>
    obtain ⟨f, hflush, h⟩ := Option.bind_eq_some_iff.mp h
    obtain ⟨⟨f', t⟩, hstep, h⟩ := Option.bind_eq_some_iff.mp h
    obtain ⟨hi, -⟩ := List.getElem?_eq_some_iff.mp hflush
    cases h
    have hevents :
        s.events o (.stepFlush i result) = Event.ofBatches f.batch? f'.batch? result := by
      simp only [events, hmove, hflush, Option.bind_some, List.getElem?_set_self hi]
    rw [hevents]
    exact .flushed hflush (Flush.action_of_step hstep)
  | stepLoop result =>
    obtain ⟨⟨loop, t⟩, hstep, h⟩ := Option.bind_eq_some_iff.mp h
    cases h
    simp only [events, hmove]
    exact effect_of_stepLoop hstep
  | wait millis =>
    cases h
    exact .waited millis

/-- A move that is not possible leaves nothing behind. -/
theorem events_of_move?_eq_none {o : TrackerOptions} {s : System} {m : Move}
    (h : s.move? o m = none) :
    s.events o m = [] := by
  have hmove : s.move o m = s := by rw [move, h, Option.getD_none]
  have hsame : ∀ batch result, Event.ofBatches batch batch result = [] := by
    intro batch result
    cases batch <;> rfl
  cases m with
  | report name => cases h
  | flush => cases h
  | stepReport i =>
    simp only [events]
    split
    · next name hreport =>
      -- a report that has not remembered its name can do so
      simp [move?, hreport, Report.step] at h
    · rfl
  | stepFlush i result => simp only [events, hmove, hsame]
  | stepLoop result => simp only [events, hmove, hsame]
  | wait millis => cases h

/-- A run with one move more. -/
theorem run_concat (o : TrackerOptions) (s : System) (moves : List Move) (m : Move) :
    s.run o (moves ++ [m]) = (s.run o moves).move o m := by
  simp only [run, List.foldl_append, List.foldl_cons, List.foldl_nil]

/-- What is seen of a run with one move more. -/
theorem past_concat (o : TrackerOptions) (s : System) (moves : List Move) (m : Move) :
    s.past o (moves ++ [m]) = (s.run o moves).events o m ++ s.past o moves := by
  induction moves generalizing s with
  | nil => simp [past, run]
  | cons first rest ih =>
    rw [List.cons_append, past, past, ih, List.append_assoc]
    rfl

/-- **Induction over a run.** What every effect keeps is kept by a run and what it leaves behind. -/
theorem run_induction {o : TrackerOptions} {P : System → List Event → Prop}
    (heffect : ∀ s past m s' new, P s past → s.Effect o m s' new → P s' (new ++ past)) {s : System}
    (hs : P s []) (moves : List Move) : P (s.run o moves) (s.past o moves) := by
  induction moves using List.reverseRecOn with
  | nil => exact hs
  | append_singleton moves m ih =>
    rw [run_concat, past_concat]
    cases h : (s.run o moves).move? o m with
    | none =>
      rw [events_of_move?_eq_none h, move, h]
      exact ih
    | some s' =>
      rw [move, h]
      exact heffect _ _ _ _ _ ih (effect_of_move? h)

end System

end CodeAtlas.Tracker
