import CodeAtlas.Proofs.Tracker.Conservation

/-!
# No announcement is lost

The loop sleeps in two places: until a change is announced, and until the flush that was in its way
is over. An announcement that comes while the loop is elsewhere is kept, once. The headline theorem
is **`no_lost_announcement`**: whenever the loop sleeps and nothing is announced, then nothing is
remembered, or someone is still going to announce; so a remembered name always has a task that is
going to act.

Two facts at all times carry it (`System.Awake`). When the loop has found nothing left, whatever is
remembered came after that, and its report has announced it or is about to. When the loop was
refused, the flush that was in its way has announced its end or still has the flag. Only the loop
takes an announcement, and by that it leaves its place; everything else that happens leaves both
facts alone.
-/

namespace CodeAtlas.Tracker

open Std

/-! ## What an action of a flush leaves alone -/

variable {size : Nat} {result : RefreshResult} {t t' : Tracker} {f f' : Flush}

/-- A flush announces no changes and hears of none. -/
theorem Flush.Action.wake_eq (h : f.Action size result t f' t') : t'.wake = t.wake := by
  cases h with
  | ended batch => exact wake_record t result
  | _ => rfl

/-- A flush remembers nothing. -/
theorem Flush.Action.isEmpty (h : f.Action size result t f' t')
    (hempty : t.pending.isEmpty = true) :
    t'.pending.isEmpty = true := by
  cases h with
  | began hsome =>
    rw [TreeSet.isEmpty_iff_forall_not_mem] at hempty ⊢
    intro name hname
    exact hempty name (mem_takeBatch.mp hname).1
  | ended batch =>
    rw [pending_record]
    exact hempty
  | _ => exact hempty

/-- A flush does not hear of the end of a flush. -/
theorem Flush.Action.idle (h : f.Action size result t f' t') (hidle : t.idle = true) :
    t'.idle = true := by
  cases h with
  | ended batch =>
    rw [idle_record]
    exact hidle
  | announced outcome => rfl
  | _ => exact hidle

/-- Who has the flag has not announced the end. -/
theorem Flush.owes_of_holds (hf : f.holds = true) : f.owes = true := by
  cases f with
  | announcing outcome => rfl
  | _ => exact hf

/-- A flush that took the flag has not announced its end until it does. -/
theorem Flush.Action.owes (h : f.Action size result t f' t') (hf : f.owes = true) :
    f'.owes = true ∨ t'.idle = true := by
  cases h with
  | announced outcome => exact .inr rfl
  | idled => exact .inl rfl
  | began => exact .inl rfl
  | ended batch => exact .inl rfl
  | freed outcome => exact .inl rfl
  | _ => cases hf

/-! ## Where the loop is -/

namespace Loop

/-- The loop waits for a change, or is about to as nothing was left. -/
def Content : Loop → Prop
  | .waiting => True
  | .flushing (.releasing outcome) => outcome.remaining = 0
  | .flushing (.announcing outcome) => outcome.remaining = 0
  | .flushing (.done outcome) => outcome.remaining = 0
  | _ => False

/-- The loop waits for the end of another flush, or is about to as it was refused. -/
def Refused : Loop → Prop
  | .blocked => True
  | .flushing .refused => True
  | .flushing (.done outcome) => outcome.isBusy = true
  | _ => False

/-- After a flush the loop is content only if nothing was left. -/
theorem content_of_next {outcome : FlushOutcome} (h : (next outcome).Content) :
    Content (.flushing (.done outcome)) := by
  unfold next at h
  split at h
  · next hzero => exact hzero
  · split at h <;> exact h.elim

/-- After a flush the loop waits for another one only if it was refused. -/
theorem refused_of_next {outcome : FlushOutcome} (h : (next outcome).Refused) :
    Refused (.flushing (.done outcome)) := by
  unfold next at h
  split at h
  · exact h.elim
  · split at h
    · next hbusy => exact hbusy
    · exact h.elim

end Loop

/-! ## The invariant -/

namespace System

/-- Nothing that the loop waits for is lost. -/
structure Awake (s : System) : Prop where
  /-- what is remembered behind the back of a content loop is announced, or is about to be -/
  heard : s.loop.Content → s.tracker.pending.isEmpty = true ∨ s.tracker.wake = true ∨
    ∃ (i : Nat) (name : String), s.reports[i]? = some (.announcing name)
  /-- the flush in the way of a refused loop is over and has announced it, or is going to -/
  released : s.loop.Refused → s.tracker.idle = true ∨ ∃ f ∈ s.flushes, f.owes = true

theorem awake_start (enabled : Bool) : (start enabled).Awake :=
  ⟨fun _ => .inl rfl, fun h => h.elim⟩

/-- An action of a flush that is not the one of the loop. -/
theorem Awake.flushed {s : System} (hs : s.Awake) {i : Nat} (hflush : s.flushes[i]? = some f)
    (haction : f.Action size result s.tracker f' t) :
    ({ s with tracker := t, flushes := s.flushes.set i f' } : System).Awake := by
  refine ⟨fun hloop => ?_, fun hloop => ?_⟩
  · rcases hs.heard hloop with hempty | hwake | hreport
    · exact .inl (haction.isEmpty hempty)
    · exact .inr (.inl (haction.wake_eq.trans hwake))
    · exact .inr (.inr hreport)
  · obtain ⟨before, after, hold, hnew⟩ := exists_split hflush
    rcases hs.released hloop with hidle | ⟨g, hg, howes⟩
    · exact .inl (haction.idle hidle)
    · rw [hold] at hg
      simp only [hnew]
      rcases List.mem_append.mp hg with hg | hg
      · exact .inr ⟨g, List.mem_append_left _ hg, howes⟩
      · rcases List.mem_cons.mp hg with rfl | hg
        · -- the flush that acts is the one that is waited for
          rcases haction.owes howes with howes' | hidle
          · exact .inr ⟨f', by simp, howes'⟩
          · exact .inl hidle
        · exact .inr ⟨g, List.mem_append_right _ (List.mem_cons_of_mem _ hg), howes⟩

/-- An action of the flush of the loop. When it is refused, one of the other flushes has the flag.
-/
theorem Awake.looped {s : System} (hs : s.Awake) (hsize : 1 ≤ size)
    (hbusy : s.flushing.countP Flush.holds = s.tracker.busy.toNat) (hloop : s.loop = .flushing f)
    (haction : f.Action size result s.tracker f' t) :
    ({ s with tracker := t, loop := .flushing f' } : System).Awake := by
  have hempty : s.tracker.pending.size = 0 → s.tracker.pending.isEmpty = true := by
    intro h
    rw [TreeSet.isEmpty_eq_size_eq_zero, h]
    rfl
  cases haction with
  | took => exact ⟨fun h => h.elim, fun h => h.elim⟩
  | refused htaken =>
    refine ⟨fun h => h.elim, fun _ => .inr ?_⟩
    have hone : s.flushes.countP Flush.holds = 1 := by
      rw [flushing, hloop, htaken] at hbusy
      exact hbusy
    obtain ⟨g, hg, hholds⟩ := List.countP_pos_iff.mp (hone ▸ Nat.one_pos)
    exact ⟨g, hg, Flush.owes_of_holds hholds⟩
  | counted =>
    refine ⟨fun h => .inl (hempty h), fun _ => hs.released ?_⟩
    rw [hloop]
    trivial
  | idled hnone => exact ⟨fun _ => .inl (isEmpty_of_batch_eq_nil hsize hnone), fun h => h.elim⟩
  | began => exact ⟨fun h => h.elim, fun h => h.elim⟩
  | ended batch =>
    refine ⟨fun h => .inl ?_, fun h => h.elim⟩
    rw [pending_record]
    exact hempty ((remaining_record _ _).symm.trans h)
  | freed outcome =>
    refine ⟨fun h => hs.heard ?_, fun h => h.elim⟩
    rw [hloop]
    exact h
  | announced outcome =>
    refine ⟨fun h => hs.heard ?_, fun _ => .inl rfl⟩
    rw [hloop]
    exact h

/-- **Whatever happens, nothing that the loop waits for is lost.** -/
theorem Awake.effect {o : TrackerOptions} {s s' : System} {m : Move} {new : List Event}
    (hs : s.Awake)
    (hsize : 1 ≤ o.batchSize) (hbusy : s.flushing.countP Flush.holds = s.tracker.busy.toNat)
    (h : s.Effect o m s' new) : s'.Awake := by
  cases h with
  | reported name =>
    refine ⟨fun hloop => ?_, hs.released⟩
    rcases hs.heard hloop with hempty | hwake | ⟨i, other, hreport⟩
    · exact .inl hempty
    · exact .inr (.inl hwake)
    · obtain ⟨hi, -⟩ := List.getElem?_eq_some_iff.mp hreport
      exact .inr (.inr ⟨i, other, (List.getElem?_append_left hi).trans hreport⟩)
  | asked =>
    refine ⟨hs.heard, fun hloop => ?_⟩
    rcases hs.released hloop with hidle | ⟨f, hf, howes⟩
    · exact .inl hidle
    · exact .inr ⟨f, List.mem_append_left _ hf, howes⟩
  | @remembered i name hreport =>
    obtain ⟨hi, -⟩ := List.getElem?_eq_some_iff.mp hreport
    exact ⟨fun _ => .inr (.inr ⟨i, name, List.getElem?_set_self hi⟩), hs.released⟩
  | announced hreport => exact ⟨fun _ => .inr (.inl rfl), hs.released⟩
  | flushed hflush haction => exact hs.flushed hflush haction
  | looped hloop haction => exact hs.looped hsize hbusy hloop haction
  | heard => exact ⟨fun h => h.elim, fun h => h.elim⟩
  | ripened => exact ⟨fun h => h.elim, fun h => h.elim⟩
  | turned hloop =>
    refine ⟨fun h => hs.heard ?_, fun h => hs.released ?_⟩
    · rw [hloop]
      exact Loop.content_of_next h
    · rw [hloop]
      exact Loop.refused_of_next h
  | resumed => exact ⟨fun h => h.elim, fun h => h.elim⟩
  | waited => exact ⟨hs.heard, hs.released⟩

/-- **Every reachable system is awake.** -/
theorem awake_run {o : TrackerOptions} (hsize : 1 ≤ o.batchSize) (enabled : Bool)
    (moves : List Move) :
    ((start enabled).run o moves).Awake := by
  have hboth : ((start enabled).run o moves).Recounts o ((start enabled).past o moves) ∧
      ((start enabled).run o moves).Awake := by
    refine run_induction (P := fun s past => s.Recounts o past ∧ s.Awake) ?_
      ⟨recounts_start o enabled, awake_start enabled⟩ moves
    rintro s past m s' new ⟨hrecounts, hawake⟩ heffect
    exact ⟨hrecounts.effect heffect, hawake.effect hsize hrecounts.busy heffect⟩
  exact hboth.2

/-! ## Who acts -/

end System

/-- Whether a move is an action of a task that is there already. -/
def Move.isAction : Move → Bool
  | .stepReport _ => true
  | .stepFlush _ _ => true
  | .stepLoop _ => true
  | _ => false

/-- A flush that is not done can act. -/
theorem Flush.isSome_step {size : Nat} {result : RefreshResult} {t : Tracker} {f : Flush}
    (hf : ∀ outcome, f ≠ .done outcome) : (f.step size (fun _ => some result) t).isSome = true := by
  cases f with
  | done outcome => exact absurd rfl (hf outcome)
  | _ => rfl

/-- A flush of the loop can always go on. -/
theorem Loop.isSome_step_flushing {o : TrackerOptions} {now : Nat} {result : RefreshResult}
    {t : Tracker}
    (f : Flush) : ((Loop.flushing f).step o now (fun _ => some result) t).isSome = true := by
  cases f <;> rfl

namespace System

/-- A report that is about to announce its name can do so. -/
theorem isSome_move?_of_announcing {o : TrackerOptions} {s : System} {i : Nat} {name : String}
    (h : s.reports[i]? = some (.announcing name)) : (s.move? o (.stepReport i)).isSome = true := by
  simp [move?, h, Report.step]

/-- A flush that has not announced its end can act. -/
theorem exists_isSome_move?_of_owes {o : TrackerOptions} {s : System} {f : Flush}
    (hf : f ∈ s.flushes) (howes : f.owes = true) (result : RefreshResult) :
    ∃ i, (s.move? o (.stepFlush i result)).isSome = true := by
  obtain ⟨i, hi, rfl⟩ := List.getElem_of_mem hf
  have hstep : (s.flushes[i].step o.batchSize (fun _ => some result) s.tracker).isSome = true := by
    refine Flush.isSome_step fun outcome hdone => ?_
    rw [hdone] at howes
    cases howes
  obtain ⟨next, hnext⟩ := Option.isSome_iff_exists.mp hstep
  exact ⟨i, by simp [move?, hi, hnext]⟩

/-- The loop can go on if its step can. -/
theorem isSome_move?_stepLoop {o : TrackerOptions} {s : System} {result : RefreshResult}
    (h : (s.loop.step o s.now (fun _ => some result) s.tracker).isSome = true) :
    (s.move? o (.stepLoop result)).isSome = true := by
  obtain ⟨next, hnext⟩ := Option.isSome_iff_exists.mp h
  simp [move?, hnext]

/-- Whoever is awake and remembers something has a task that acts, now or after some time. -/
theorem Awake.acts {o : TrackerOptions} {s : System} (hs : s.Awake) (result : RefreshResult)
    (hsome : s.tracker.pending.isEmpty = false) :
    ∃ (millis : Nat) (m : Move), m.isAction = true ∧
      ((s.move o (.wait millis)).move? o m).isSome = true := by
  cases hloop : s.loop with
  | waiting =>
    rcases hs.heard (by rw [hloop]; trivial) with hempty | hwake | ⟨i, name, hreport⟩
    · rw [hempty] at hsome
      cases hsome
    · refine ⟨0, .stepLoop result, rfl, isSome_move?_stepLoop ?_⟩
      simp [move, move?, hloop, Loop.step, hwake]
    · exact ⟨0, .stepReport i, rfl, isSome_move?_of_announcing hreport⟩
  | quiet deadline =>
    refine ⟨deadline, .stepLoop result, rfl, isSome_move?_stepLoop ?_⟩
    simp only [move, move?, Option.getD_some, hloop, Loop.step]
    split
    · rfl
    · rw [if_pos (Nat.le_add_left ..)]
      rfl
  | flushing f =>
    refine ⟨0, .stepLoop result, rfl, isSome_move?_stepLoop ?_⟩
    simp only [move, move?, Option.getD_some, hloop]
    exact Loop.isSome_step_flushing f
  | blocked =>
    rcases hs.released (by rw [hloop]; trivial) with hidle | ⟨f, hf, howes⟩
    · refine ⟨0, .stepLoop result, rfl, isSome_move?_stepLoop ?_⟩
      simp [move, move?, hloop, Loop.step, hidle]
    · obtain ⟨i, hi⟩ := exists_isSome_move?_of_owes (s := s.move o (.wait 0)) hf howes result
      exact ⟨0, .stepFlush i result, rfl, hi⟩

/-- **No announcement is lost.** After any run:

* while the loop waits for a change and none is announced, nothing is remembered, unless a report
  has remembered its name and is about to announce it;
* while the loop waits for the end of a flush and none is announced, a flush other than that of the
  loop took the flag and has not announced its end; and the flag is set, and such a flush has it,
  unless a flush has given it back and is about to announce that;
* while something is remembered, some task acts, at once or when the time for it has come. -/
theorem no_lost_announcement (o : TrackerOptions) (hsize : 1 ≤ o.batchSize) (enabled : Bool)
    (moves : List Move) :
    let s := (start enabled).run o moves
    (s.loop = .waiting → s.tracker.wake = false →
      (∀ (i : Nat) (name : String), s.reports[i]? ≠ some (.announcing name)) →
      s.tracker.pending.isEmpty = true) ∧
    (s.loop = .blocked → s.tracker.idle = false → (∃ f ∈ s.flushes, f.owes = true) ∧
      ((∀ outcome, .announcing outcome ∉ s.flushes) →
        s.tracker.busy = true ∧ ∃ f ∈ s.flushes, f.holds = true)) ∧
    (s.tracker.pending.isEmpty = false →
      ∃ (millis : Nat) (m : Move), m.isAction = true ∧
        ((s.move o (.wait millis)).move? o m).isSome = true) := by
  intro s
  have hawake : s.Awake := awake_run hsize enabled moves
  refine ⟨fun hloop hwake hquiet => ?_, fun hloop hidle => ?_, hawake.acts (.error "")⟩
  · rcases hawake.heard (by rw [hloop]; trivial) with hempty | hwake' | ⟨i, name, hreport⟩
    · exact hempty
    · cases hwake.symm.trans hwake'
    · exact absurd hreport (hquiet i name)
  · rcases hawake.released (by rw [hloop]; trivial) with hidle' | ⟨f, hf, howes⟩
    · cases hidle.symm.trans hidle'
    · refine ⟨⟨f, hf, howes⟩, fun hnone => ?_⟩
      have hholds : f.holds = true := by
        cases f with
        | announcing outcome => exact absurd hf (hnone outcome)
        | _ => exact howes
      refine ⟨?_, f, hf, hholds⟩
      obtain ⟨before, after, hsplit⟩ :=
        List.append_of_mem (List.mem_append_right s.loop.flush?.toList hf)
      exact ((recounts_run o enabled moves).alone hsplit hholds).1

/-- A flush is refreshing a batch when the quiet period of the loop ends. -/
def crossing : List Move :=
  [.report "a", .stepReport 0, .stepReport 0, .flush, .stepFlush 0 (.error ""),
    .stepFlush 0 (.error ""),
    .report "b", .stepReport 1, .stepReport 1, .stepLoop (.error ""), .wait 100,
    .stepLoop (.error ""), .stepLoop (.error ""), .stepLoop (.error ""), .stepLoop (.error "")]

/-- The refresh has ended, and the flush has given the flag back and not yet announced that. -/
def handover : List Move := crossing ++ [.stepFlush 0 (.error ""), .stepFlush 0 (.error "")]

/-- The loop waits for the end of that flush while the flush has the flag, and still after the flush
has given it back. -/
theorem no_lost_announcement_crossing :
    1 ≤ (⟨100, 1⟩ : TrackerOptions).batchSize ∧
      ((start true).run ⟨100, 1⟩ crossing).tracker.busy = true ∧
      (∃ f ∈ ((start true).run ⟨100, 1⟩ crossing).flushes, f.holds = true) ∧
      ((start true).run ⟨100, 1⟩ handover).tracker.busy = false ∧
      ∃ f ∈ ((start true).run ⟨100, 1⟩ handover).flushes, f.owes = true := by
  have hnone : ∀ outcome, .announcing outcome ∉ ((start true).run ⟨100, 1⟩ crossing).flushes := by
    intro outcome hmem
    cases List.mem_singleton.mp (show _ ∈ [Flush.refreshing ["a"]] from hmem)
  obtain ⟨hbusy, hholds⟩ :=
    ((no_lost_announcement ⟨100, 1⟩ (by decide) true crossing).2.1 rfl rfl).2 hnone
  exact ⟨by decide, hbusy, hholds, by decide,
    ((no_lost_announcement ⟨100, 1⟩ (by decide) true handover).2.1 (by decide) (by decide)).1⟩

end System

end CodeAtlas.Tracker
