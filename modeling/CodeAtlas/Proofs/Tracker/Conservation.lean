import CodeAtlas.Proofs.Tracker.Actions

/-!
# Names are conserved, and refreshes exclude each other

Reports, flushes and the loop act in any order. The headline theorem is
**`conserved_and_exclusive`**: one batch is refreshed at a time, batches are bounded and without
doubles, the counters agree with what happened, and a name that is remembered stays so until a later
batch takes it.

The events of a run, the newest first, tell all of this by themselves: which names wait (`Waits`),
which batch is being refreshed (`openBatch?`), and that each batch was taken out of waiting names
while no other one was being refreshed (`Orderly`). The invariant is that the state of the system is
what the events tell (`System.Recounts`). It rests on the flag: as many flushes have it as it says,
so whoever has it is alone.
-/

namespace CodeAtlas.Tracker

/-! ## What the events tell -/

/-- A name was remembered and not taken since. -/
def Waits (name : String) : List Event → Prop
  | [] => False
  | .remembered _ other :: past => name = other ∨ Waits name past
  | .taken batch :: past => name ∉ batch ∧ Waits name past
  | .refreshed _ _ :: past => Waits name past

/-- The batch whose refresh has begun and not ended. -/
def openBatch? : List Event → Option (List String)
  | [] => none
  | .remembered _ _ :: past => openBatch? past
  | .taken batch :: _ => some batch
  | .refreshed _ _ :: _ => none

/-- Batches are taken out of waiting names, bounded and without doubles, and refreshed one at a
time. -/
def Orderly (size : Nat) : List Event → Prop
  | [] => True
  | .remembered _ _ :: past => Orderly size past
  | .taken batch :: past =>
    (batch ≠ [] ∧ batch.Nodup ∧ batch.length ≤ size) ∧ (∀ name ∈ batch, Waits name past) ∧
      openBatch? past = none ∧ Orderly size past
  | .refreshed batch _ :: past => openBatch? past = some batch ∧ Orderly size past

/-- What was orderly was orderly before. -/
theorem Orderly.past {size : Nat} {later past : List Event} (h : Orderly size (later ++ past)) :
    Orderly size past := by
  induction later with
  | nil => exact h
  | cons event later ih =>
    cases event with
    | remembered i name => exact ih h
    | taken batch => exact ih h.2.2.2
    | refreshed batch result => exact ih h.2

/-- Every batch is bounded and without doubles. -/
theorem Orderly.batch {size : Nat} {past : List Event} (h : Orderly size past) {batch : List String}
    (hbatch : .taken batch ∈ past) : batch ≠ [] ∧ batch.Nodup ∧ batch.length ≤ size := by
  obtain ⟨later, before, rfl⟩ := List.append_of_mem hbatch
  exact h.past.1

/-- A name that was remembered waits unless it was taken since. -/
theorem waits_of_remembered {later before : List Event} {i : Nat} {name : String}
    (h : ∀ batch, .taken batch ∈ later → name ∉ batch) :
    Waits name (later ++ .remembered i name :: before) := by
  induction later with
  | nil => exact .inl rfl
  | cons event later ih =>
    have hlater : Waits name (later ++ .remembered i name :: before) :=
      ih fun batch hbatch => h batch (List.mem_cons_of_mem _ hbatch)
    cases event with
    | remembered j other => exact .inr hlater
    | taken batch => exact ⟨h batch (List.mem_cons_self ..), hlater⟩
    | refreshed batch result => exact hlater

/-! ## The invariant -/

/-- The name that a report has remembered. -/
def Report.noted? : Report → Option String
  | .inserting _ => none
  | .announcing name => some name
  | .done name => some name

/-- Only a flush that has the flag waits for a refresh. -/
theorem filterMap_batch?_of_countP {flushes : List Flush} (h : flushes.countP Flush.holds = 0) :
    flushes.filterMap Flush.batch? = [] := by
  rw [List.filterMap_eq_nil_iff]
  intro f hf
  have hholds := List.countP_eq_zero.mp h f hf
  cases f with
  | refreshing batch => exact absurd rfl hholds
  | _ => rfl

/-- How many flushes have the flag, one of them apart. -/
theorem countP_holds_split (before after : List Flush) (f : Flush) :
    (before ++ f :: after).countP Flush.holds =
      before.countP Flush.holds + after.countP Flush.holds + f.holds.toNat := by
  cases hf : f.holds with
  | false => simp [List.countP_append, hf]
  | true =>
    simp [List.countP_append, hf]
    omega

/-- The batches that are being refreshed, the one of one flush apart. -/
theorem filterMap_batch?_split (before after : List Flush) (f : Flush) :
    (before ++ f :: after).filterMap Flush.batch? =
      before.filterMap Flush.batch? ++ f.batch?.toList ++ after.filterMap Flush.batch? := by
  cases hf : f.batch? <;> simp [hf]

/-- An action gives the flag to a flush or takes it from one as it sets it or clears it. -/
theorem Flush.Action.flag {size : Nat} {result : RefreshResult} {t t' : Tracker} {f f' : Flush}
    (h : f.Action size result t f' t') (hset : f.holds = true → t.busy = true) :
    t.busy.toNat + f'.holds.toNat = t'.busy.toNat + f.holds.toNat := by
  cases h with
  | took hfree =>
    rw [hfree]
    rfl
  | ended batch =>
    rw [busy_record]
    rfl
  | freed outcome =>
    rw [hset rfl]
    rfl
  | _ => rfl

namespace System

/-- The state of a system is what the events tell. -/
structure Recounts (o : TrackerOptions) (s : System) (past : List Event) : Prop where
  /-- the names that wait are remembered, and no others -/
  pending : ∀ name, name ∈ s.tracker.pending ↔ Waits name past
  /-- the batch whose refresh has not ended is the only one that is being refreshed -/
  inFlight : s.inFlight = (openBatch? past).toList
  /-- the flag says how many flushes have it -/
  busy : s.flushing.countP Flush.holds = s.tracker.busy.toNat
  /-- every refresh that has ended is counted -/
  flushes : s.tracker.flushes = (results past).length
  /-- every file that was refreshed is counted -/
  refreshed : s.tracker.refreshed = ((results past).map refreshedFiles).sum
  /-- a report that is past remembering its name has done so -/
  reports : ∀ (i : Nat) name, s.reports[i]?.bind Report.noted? = some name →
    .remembered i name ∈ past
  /-- batches are as they should be -/
  orderly : Orderly o.batchSize past

theorem recounts_start (o : TrackerOptions) (enabled : Bool) : (start enabled).Recounts o [] where
  pending name := by simp [start, Tracker.start, Waits]
  inFlight := rfl
  busy := rfl
  flushes := rfl
  refreshed := rfl
  reports i name h := by simp [start] at h
  orderly := trivial

/-- An action of which nothing is seen, and which leaves the names and the counters as they are. -/
theorem Recounts.same {o : TrackerOptions} {s s' : System} {past : List Event}
    (hs : s.Recounts o past) (hpending : s'.tracker.pending = s.tracker.pending)
    (hflushes : s'.tracker.flushes = s.tracker.flushes)
    (hrefreshed : s'.tracker.refreshed = s.tracker.refreshed) (hinFlight : s'.inFlight = s.inFlight)
    (hbusy : s'.flushing.countP Flush.holds = s'.tracker.busy.toNat)
    (hreports : ∀ i : Nat, s'.reports[i]?.bind Report.noted? = s.reports[i]?.bind Report.noted?) :
    s'.Recounts o past where
  pending name := by rw [hpending, hs.pending]
  inFlight := by rw [hinFlight, hs.inFlight]
  busy := hbusy
  flushes := by rw [hflushes, hs.flushes]
  refreshed := by rw [hrefreshed, hs.refreshed]
  reports i name h := hs.reports i name (hreports i ▸ h)
  orderly := hs.orderly

/-- A flush that has the flag is alone: the flag is set, and no other flush waits for a refresh. -/
theorem Recounts.alone {o : TrackerOptions} {s : System} {past : List Event}
    (hs : s.Recounts o past)
    {before after : List Flush} {f : Flush} (hflushing : s.flushing = before ++ f :: after)
    (hf : f.holds = true) :
    s.tracker.busy = true ∧ before.filterMap Flush.batch? = [] ∧
      after.filterMap Flush.batch? = [] := by
  have hbusy := hs.busy
  have hle := Bool.toNat_le s.tracker.busy
  rw [hflushing, countP_holds_split, hf, Bool.toNat_true] at hbusy
  refine ⟨?_, filterMap_batch?_of_countP (by omega), filterMap_batch?_of_countP (by omega)⟩
  rw [← Bool.toNat_eq_one]
  omega

/-- An action of a flush, be it one of the flushes or the one of the loop. -/
theorem Recounts.flush {o : TrackerOptions} {s s' : System} {past : List Event}
    (hs : s.Recounts o past) {f f' : Flush} {result : RefreshResult} (before after : List Flush)
    (haction : f.Action o.batchSize result s.tracker f' s'.tracker)
    (hold : s.flushing = before ++ f :: after) (hnew : s'.flushing = before ++ f' :: after)
    (hreports : s'.reports = s.reports) :
    s'.Recounts o (Event.ofBatches f.batch? f'.batch? result ++ past) := by
  have hbusy : s'.flushing.countP Flush.holds = s'.tracker.busy.toNat := by
    have hflag := haction.flag fun hf => (hs.alone hold hf).1
    have hcount := hs.busy
    rw [hold, countP_holds_split] at hcount
    rw [hnew, countP_holds_split]
    omega
  have hsame : ∀ i : Nat, s'.reports[i]?.bind Report.noted? = s.reports[i]?.bind Report.noted? := by
    intro i
    rw [hreports]
  have hstill : f.batch? = none → f'.batch? = none → s'.inFlight = s.inFlight := by
    intro hf hf'
    rw [System.inFlight, System.inFlight, hold, hnew, filterMap_batch?_split,
      filterMap_batch?_split, hf, hf']
  -- while a flush has the flag, its batch is the one that is being refreshed
  have hbefore : f.holds = true → (openBatch? past).toList = f.batch?.toList := by
    intro hf
    obtain ⟨-, hnone, hnone'⟩ := hs.alone hold hf
    rw [← hs.inFlight, System.inFlight, hold, filterMap_batch?_split, hnone, hnone',
      List.nil_append, List.append_nil]
  have hafter : f.holds = true → s'.inFlight = f'.batch?.toList := by
    intro hf
    obtain ⟨-, hnone, hnone'⟩ := hs.alone hold hf
    rw [System.inFlight, hnew, filterMap_batch?_split, hnone, hnone', List.nil_append,
      List.append_nil]
  generalize ht : s'.tracker = t at haction
  cases haction with
  | began hsome =>
    have hnone : openBatch? past = none := by
      simpa [Flush.batch?] using hbefore rfl
    refine ⟨fun name => ?_, hafter rfl, hbusy, ?_, ?_, fun i name h => ?_, ?_⟩
    · rw [ht, mem_takeBatch, hs.pending, and_comm]
      rfl
    · rw [ht]
      exact hs.flushes
    · rw [ht]
      exact hs.refreshed
    · rw [hsame] at h
      exact List.mem_cons_of_mem _ (hs.reports i name h)
    · refine ⟨⟨hsome, nodup_batch _ _, length_batch_le _ _⟩, fun name hname => ?_, hnone,
        hs.orderly⟩
      exact (hs.pending name).mp (mem_pending_of_mem_batch hname)
  | ended batch =>
    have hopen : openBatch? past = some batch := by
      simpa [Flush.batch?] using hbefore rfl
    refine ⟨fun name => ?_, hafter rfl, hbusy, ?_, ?_, fun i name h => ?_, hopen, hs.orderly⟩
    · rw [ht, pending_record, hs.pending]
      rfl
    · rw [ht, flushes_record, hs.flushes]
      rfl
    · rw [ht, refreshed_record, hs.refreshed]
      exact Nat.add_comm _ _
    · rw [hsame] at h
      exact List.mem_cons_of_mem _ (hs.reports i name h)
  | _ =>
    exact hs.same ((congrArg Tracker.pending ht).trans rfl)
      ((congrArg Tracker.flushes ht).trans rfl)
      ((congrArg Tracker.refreshed ht).trans rfl) (hstill rfl rfl) hbusy hsame

/-- An action of the loop before or after a flush of its own. -/
theorem Recounts.loop {o : TrackerOptions} {s : System} {past : List Event} (hs : s.Recounts o past)
    {loop : Loop} {t : Tracker} (hpending : t.pending = s.tracker.pending)
    (hbusy : t.busy = s.tracker.busy)
    (hflushes : t.flushes = s.tracker.flushes) (hrefreshed : t.refreshed = s.tracker.refreshed)
    (hold : ∀ f ∈ s.loop.flush?, f.holds = false) (hnew : ∀ f ∈ loop.flush?, f.holds = false) :
    ({ s with tracker := t, loop := loop } : System).Recounts o past := by
  have hquiet : ∀ flush? : Option Flush, (∀ f ∈ flush?, f.holds = false) →
      flush?.toList.filterMap Flush.batch? = [] ∧ flush?.toList.countP Flush.holds = 0 := by
    intro flush? h
    have hzero : flush?.toList.countP Flush.holds = 0 := by
      rw [List.countP_eq_zero]
      intro f hf
      rw [h f (Option.mem_toList.mp hf)]
      exact Bool.false_ne_true
    exact ⟨filterMap_batch?_of_countP hzero, hzero⟩
  obtain ⟨hbatch, hcount⟩ := hquiet _ hold
  obtain ⟨hbatch', hcount'⟩ := hquiet _ hnew
  refine hs.same hpending hflushes hrefreshed ?_ ?_ fun _ => rfl
  · simp only [System.inFlight, flushing, List.filterMap_append, hbatch, hbatch']
  · have hholds := hs.busy
    simp only [flushing, List.countP_append, hcount, hcount', hbusy] at hholds ⊢
    exact hholds

/-- **Whatever happens, the state stays what the events tell.** -/
theorem Recounts.effect {o : TrackerOptions} {s s' : System} {m : Move} {past new : List Event}
    (hs : s.Recounts o past) (h : s.Effect o m s' new) : s'.Recounts o (new ++ past) := by
  cases h with
  | reported name =>
    refine hs.same rfl rfl rfl rfl hs.busy fun i => ?_
    rw [List.getElem?_append]
    split
    · rfl
    · next hi =>
      -- the report that comes has not remembered anything
      rw [List.getElem?_eq_none (Nat.le_of_not_lt hi), List.getElem?_singleton]
      split <;> rfl
  | asked =>
    refine hs.same rfl rfl rfl ?_ ?_ fun _ => rfl
    · simp [System.inFlight, flushing, Flush.batch?]
    · have hbusy := hs.busy
      simpa [flushing, Flush.holds, List.countP_append] using hbusy
  | @remembered i name hreport =>
    refine ⟨fun other => ?_, hs.inFlight, hs.busy, hs.flushes, hs.refreshed, fun j other h => ?_,
      hs.orderly⟩
    · rw [mem_insert, hs.pending]
      rfl
    · rw [List.getElem?_set] at h
      split at h
      · next hij =>
        obtain ⟨hi, -⟩ := List.getElem?_eq_some_iff.mp hreport
        rw [if_pos (hij ▸ hi)] at h
        cases h
        rw [hij]
        exact List.mem_cons_self ..
      · exact List.mem_cons_of_mem _ (hs.reports j other h)
  | @announced i name hreport =>
    refine hs.same rfl rfl rfl rfl hs.busy fun j => ?_
    rw [List.getElem?_set]
    split
    · next hij =>
      obtain ⟨hi, -⟩ := List.getElem?_eq_some_iff.mp hreport
      rw [if_pos (hij ▸ hi), ← hij, hreport]
      rfl
    · rfl
  | @flushed i f f' result t hflush haction =>
    obtain ⟨before, after, hold, hnew⟩ := exists_split hflush
    refine hs.flush (s.loop.flush?.toList ++ before) after haction ?_ ?_ rfl
    · rw [flushing, hold, List.append_assoc]
    · rw [flushing, hnew, List.append_assoc]
  | looped hloop haction =>
    refine hs.flush [] s.flushes haction ?_ rfl rfl
    rw [flushing, hloop]
    rfl
  | heard hloop =>
    refine hs.loop rfl rfl rfl rfl ?_ (by simp [Loop.flush?])
    rw [hloop]
    simp
  | ripened hloop =>
    refine hs.loop rfl rfl rfl rfl ?_ (by simp [Loop.flush?, Flush.holds])
    rw [hloop]
    simp [Loop.flush?]
  | turned hloop =>
    refine hs.loop rfl rfl rfl rfl ?_ ?_
    · rw [hloop]
      simp [Loop.flush?, Flush.holds]
    · unfold Loop.next
      split <;> [skip; split] <;> simp [Loop.flush?, Flush.holds]
  | resumed hloop =>
    refine hs.loop rfl rfl rfl rfl ?_ (by simp [Loop.flush?, Flush.holds])
    rw [hloop]
    simp [Loop.flush?]
  | waited millis => exact hs.same rfl rfl rfl rfl hs.busy fun _ => rfl

/-- **The state of a system that was run is what the events of the run tell.** -/
theorem recounts_run (o : TrackerOptions) (enabled : Bool) (moves : List Move) :
    ((start enabled).run o moves).Recounts o ((start enabled).past o moves) :=
  run_induction (fun _ _ _ _ _ hs h => hs.effect h) (recounts_start o enabled) moves

/-! ## Conservation and exclusion -/

/-- **Names are conserved, and refreshes exclude each other.** After any run:

* at most one batch is being refreshed;
* every batch whose refresh began has names, none of them twice, and no more of them than allowed;
* a report that is done has remembered its name, and a name that was remembered is still remembered
  unless a batch with it was taken later, also if a batch with it was being refreshed at that time;
* the flag is clear while no flush has it, and the counters count the refreshes that have ended and
  the files that they refreshed. -/
theorem conserved_and_exclusive (o : TrackerOptions) (enabled : Bool) (moves : List Move) :
    let s := (start enabled).run o moves
    let past := (start enabled).past o moves
    s.inFlight.length ≤ 1 ∧
    (∀ batch, .taken batch ∈ past → batch ≠ [] ∧ batch.Nodup ∧ batch.length ≤ o.batchSize) ∧
    (∀ i name, s.reports[i]? = some (.done name) → .remembered i name ∈ past) ∧
    (∀ later i name before, past = later ++ .remembered i name :: before →
      name ∈ s.tracker.pending ∨ ∃ batch, .taken batch ∈ later ∧ name ∈ batch) ∧
    ((∀ f ∈ s.flushing, f.holds = false) → s.tracker.busy = false) ∧
    s.tracker.flushes = (results past).length ∧
    s.tracker.refreshed = ((results past).map refreshedFiles).sum := by
  intro s past
  have hs : s.Recounts o past := recounts_run o enabled moves
  refine ⟨?_, fun batch hbatch => hs.orderly.batch hbatch, fun i name h => ?_, ?_, fun h => ?_,
    hs.flushes, hs.refreshed⟩
  · rw [hs.inFlight]
    cases openBatch? past <;> simp
  · refine hs.reports i name ?_
    rw [h]
    rfl
  · intro later i name before hpast
    by_cases htaken : ∃ batch, .taken batch ∈ later ∧ name ∈ batch
    · exact .inr htaken
    · refine .inl ((hs.pending name).mpr ?_)
      rw [hpast]
      exact waits_of_remembered fun batch hbatch hname => htaken ⟨batch, hbatch, hname⟩
  · have hcount : s.flushing.countP Flush.holds = 0 := by
      rw [List.countP_eq_zero]
      intro f hf
      rw [h f hf]
      exact Bool.false_ne_true
    rw [hs.busy] at hcount
    exact Bool.toNat_eq_zero.mp hcount

end System

end CodeAtlas.Tracker
