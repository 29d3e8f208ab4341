import CodeAtlas.Proofs.Tracker.Conservation

/-!
# When a name is lost

A batch is taken out of the remembered names before its refresh, and it is not put back if that
refresh fails. The headline theorem is **`kept_iff_not_lost`**: a name that was remembered is still
remembered, or being refreshed, or refreshed since, unless it is lost; and it is lost exactly if
every refresh of it since has failed and no report has remembered it again. Nobody tries a second
time by himself.

All of this is read off the events of a run. A name that a batch has taken does not wait until it is
remembered again (`not_waits`), so no later batch has it (`Orderly.notMem_batch`); and the refresh
of the batch has not ended or has left its result behind (`Orderly.open_or_ended`).
-/

namespace CodeAtlas.Tracker

variable {size i : Nat} {name : String} {batch : List String} {newer older : List Event}

/-! ## What becomes of a name that was taken -/

/-- A name was taken and refreshed, all that with the later events. -/
def Refreshed (name : String) (later : List Event) : Prop :=
  ∃ newer batch older outcome, later = newer ++ .taken batch :: older ∧ name ∈ batch ∧
    .refreshed batch (.ok outcome) ∈ newer

/-- A name was taken, the refresh failed, and the name was not remembered since; and no other
refresh of it had success. -/
def Lost (name : String) (later : List Event) : Prop :=
  ∃ newer batch older error, later = newer ++ .taken batch :: older ∧ name ∈ batch ∧
    .refreshed batch (.error error) ∈ newer ∧ (∀ i, .remembered i name ∉ newer) ∧
      ¬ Refreshed name later

/-- A name that was taken does not wait until it is remembered again. -/
theorem not_waits (hname : name ∈ batch) (hnew : ∀ i, .remembered i name ∉ newer) :
    ¬ Waits name (newer ++ .taken batch :: older) := by
  induction newer with
  | nil => exact fun h => h.1 hname
  | cons event newer ih =>
    have hrest : ¬ Waits name (newer ++ .taken batch :: older) :=
      ih fun i hi => hnew i (List.mem_cons_of_mem _ hi)
    cases event with
    | remembered i other =>
      rintro (rfl | h)
      · exact hnew i (List.mem_cons_self ..)
      · exact hrest h
    | taken other => exact fun h => hrest h.2
    | refreshed other result => exact hrest

/-- A name that was taken is in no later batch until it is remembered again. -/
theorem Orderly.notMem_batch (h : Orderly size (newer ++ .taken batch :: older))
    (hname : name ∈ batch)
    (hnew : ∀ i, .remembered i name ∉ newer) {other : List String} (hother : .taken other ∈ newer) :
    name ∉ other := by
  obtain ⟨later, before, rfl⟩ := List.append_of_mem hother
  rw [List.append_assoc, List.cons_append] at h
  intro hmem
  -- the other batch was taken out of names that waited
  have hwaits : Waits name (before ++ .taken batch :: older) := h.past.2.1 name hmem
  refine not_waits hname (fun i hi => hnew i ?_) hwaits
  exact List.mem_append_right _ (List.mem_cons_of_mem _ hi)

/-- The refresh of a batch that was taken has not ended, or it has left its result behind. -/
theorem Orderly.open_or_ended (h : Orderly size (newer ++ .taken batch :: older)) :
    openBatch? (newer ++ .taken batch :: older) = some batch ∨
      ∃ result, .refreshed batch result ∈ newer := by
  induction newer with
  | nil => exact .inl rfl
  | cons event newer ih =>
    cases event with
    | remembered i other =>
      rcases ih h with hopen | ⟨result, hresult⟩
      · exact .inl hopen
      · exact .inr ⟨result, List.mem_cons_of_mem _ hresult⟩
    | taken other =>
      obtain ⟨-, -, hnone, hrest⟩ := h
      rcases ih hrest with hopen | ⟨result, hresult⟩
      · -- no batch is taken while another one is being refreshed
        cases hopen.symm.trans hnone
      · exact .inr ⟨result, List.mem_cons_of_mem _ hresult⟩
    | refreshed other result =>
      obtain ⟨hother, hrest⟩ := h
      rcases ih hrest with hopen | ⟨result', hresult⟩
      · cases hopen.symm.trans hother
        exact .inr ⟨result, List.mem_cons_self ..⟩
      · exact .inr ⟨result', List.mem_cons_of_mem _ hresult⟩

/-- A batch that is being refreshed was taken after every refresh that has ended. -/
theorem taken_of_open {result : RefreshResult} {other : List String}
    (hopen : openBatch? (newer ++ older) = some other) (hended : .refreshed batch result ∈ newer) :
    .taken other ∈ newer := by
  induction newer with
  | nil => cases hended
  | cons event newer ih =>
    cases event with
    | remembered i name =>
      rcases List.mem_cons.mp hended with heq | hended
      · cases heq
      · exact List.mem_cons_of_mem _ (ih hopen hended)
    | taken batch' =>
      cases hopen
      exact List.mem_cons_self ..
    | refreshed batch' result' => cases hopen

/-- Of the batches that have a name, one is the last. -/
theorem exists_last_taken {later : List Event} (h : ∃ batch, .taken batch ∈ later ∧ name ∈ batch) :
    ∃ newer batch older, later = newer ++ .taken batch :: older ∧ name ∈ batch ∧
      ∀ other, .taken other ∈ newer → name ∉ other := by
  induction later with
  | nil =>
    obtain ⟨batch, hbatch, -⟩ := h
    cases hbatch
  | cons event later ih =>
    by_cases hevent : ∃ batch, event = .taken batch ∧ name ∈ batch
    · obtain ⟨batch, rfl, hname⟩ := hevent
      exact ⟨[], batch, later, rfl, hname, fun other hother => by cases hother⟩
    · have hlater : ∃ batch, .taken batch ∈ later ∧ name ∈ batch := by
        obtain ⟨batch, hbatch, hname⟩ := h
        rcases List.mem_cons.mp hbatch with heq | hbatch
        · exact absurd ⟨batch, heq.symm, hname⟩ hevent
        · exact ⟨batch, hbatch, hname⟩
      obtain ⟨newer, batch, older, rfl, hname, hlast⟩ := ih hlater
      refine ⟨event :: newer, batch, older, rfl, hname, fun other hother hmem => ?_⟩
      rcases List.mem_cons.mp hother with heq | hother
      · exact hevent ⟨other, heq.symm, hmem⟩
      · exact hlast other hother hmem

/-! ## Names that are kept -/

/-- The events since a batch was taken, and those before. -/
theorem split_at_taken {later before : List Event} (h : later = newer ++ .taken batch :: older) :
    later ++ .remembered i name :: before =
      newer ++ .taken batch :: (older ++ .remembered i name :: before) := by
  rw [h, List.append_assoc, List.cons_append]

namespace System

variable {o : TrackerOptions} {s : System} {later before : List Event}

/-- A batch is being refreshed if the events tell so. -/
theorem Recounts.mem_inFlight {past : List Event} (hs : s.Recounts o past) :
    batch ∈ s.inFlight ↔ openBatch? past = some batch := by
  rw [hs.inFlight, Option.mem_toList]

/-- Whoever is remembered, being refreshed or refreshed is not lost. -/
theorem Recounts.not_lost (hs : s.Recounts o (later ++ .remembered i name :: before))
    (hkept : name ∈ s.tracker.pending ∨ (∃ batch ∈ s.inFlight, name ∈ batch) ∨
    Refreshed name later) :
    ¬ Lost name later := by
  rintro ⟨newer, batch, older, error, hlater, hname, hended, hnew, hnever⟩
  rw [split_at_taken hlater] at hs
  rcases hkept with hpending | ⟨other, hother, hmem⟩ | hrefreshed
  · exact not_waits hname hnew ((hs.pending name).mp hpending)
  · have htaken := taken_of_open (hs.mem_inFlight.mp hother) hended
    exact hs.orderly.notMem_batch hname hnew htaken hmem
  · exact hnever hrefreshed

/-- Whoever is not lost is remembered, being refreshed or refreshed: it depends on the last batch
that has the name. -/
theorem Recounts.kept (hs : s.Recounts o (later ++ .remembered i name :: before))
    (hlost : ¬ Lost name later) :
    name ∈ s.tracker.pending ∨ (∃ batch ∈ s.inFlight, name ∈ batch) ∨ Refreshed name later := by
  by_cases htaken : ∃ batch, .taken batch ∈ later ∧ name ∈ batch
  · obtain ⟨newer, batch, older, hlater, hname, hlast⟩ := exists_last_taken htaken
    by_cases hagain : ∃ j, .remembered j name ∈ newer
    · -- the name was remembered after the last batch that has it
      obtain ⟨j, hj⟩ := hagain
      obtain ⟨after, since, rfl⟩ := List.append_of_mem hj
      refine .inl ((hs.pending name).mpr ?_)
      rw [hlater, List.append_assoc, List.append_assoc, List.cons_append]
      exact waits_of_remembered fun other hother => hlast other (List.mem_append_left _ hother)
    · rw [split_at_taken hlater] at hs
      rcases hs.orderly.open_or_ended with hopen | ⟨result, hended⟩
      · exact .inr (.inl ⟨batch, hs.mem_inFlight.mpr hopen, hname⟩)
      · cases result with
        | ok outcome => exact .inr (.inr ⟨newer, batch, older, outcome, hlater, hname, hended⟩)
        | error error =>
          by_cases hrefreshed : Refreshed name later
          · exact .inr (.inr hrefreshed)
          · exact absurd ⟨newer, batch, older, error, hlater, hname, hended,
              fun j hj => hagain ⟨j, hj⟩, hrefreshed⟩ hlost
  · refine .inl ((hs.pending name).mpr (waits_of_remembered fun batch hbatch hname => ?_))
    exact htaken ⟨batch, hbatch, hname⟩

/-- **A name is kept unless it is lost.** After any run, a name that a report remembered, with
`later` the events since, is still remembered, or is being refreshed, or was taken and refreshed
since, unless it is lost. And a name that was taken is in no other batch until a report remembers it
again, be its refresh a success or not. -/
theorem kept_iff_not_lost (o : TrackerOptions) (enabled : Bool) (moves : List Move)
    {later before : List Event} {i : Nat} {name : String}
    (hpast : (start enabled).past o moves = later ++ .remembered i name :: before) :
    let s := (start enabled).run o moves
    ((name ∈ s.tracker.pending ∨ (∃ batch ∈ s.inFlight, name ∈ batch) ∨ Refreshed name later) ↔
      ¬ Lost name later) ∧
    ∀ newer batch older, later = newer ++ .taken batch :: older → name ∈ batch →
      (∀ j, .remembered j name ∉ newer) → ∀ other, .taken other ∈ newer → name ∉ other := by
  intro s
  have hs : s.Recounts o ((start enabled).past o moves) := recounts_run o enabled moves
  rw [hpast] at hs
  refine ⟨⟨hs.not_lost, hs.kept⟩, fun newer batch older hlater hname hnew other hother => ?_⟩
  rw [split_at_taken hlater] at hs
  exact hs.orderly.notMem_batch hname hnew hother

/-- A report and a flush whose refresh fails. -/
def outage : List Move :=
  [.report "a", .stepReport 0, .stepReport 0, .flush, .stepFlush 0 (.error "down"),
    .stepFlush 0 (.error "down"), .stepFlush 0 (.error "down"), .stepFlush 0 (.error "down")]

/-- After an outage the name is neither remembered nor being refreshed, and it was not refreshed. -/
theorem kept_iff_not_lost_outage :
    (start true).past ⟨100, 8⟩ outage =
      [.refreshed ["a"] (.error "down"), .taken ["a"]] ++ .remembered 0 "a" :: [] ∧
    ¬ ("a" ∈ ((start true).run ⟨100, 8⟩ outage).tracker.pending ∨
      (∃ batch ∈ ((start true).run ⟨100, 8⟩ outage).inFlight, "a" ∈ batch) ∨
      Refreshed "a" [.refreshed ["a"] (.error "down"), .taken ["a"]]) := by
  have hpast : (start true).past ⟨100, 8⟩ outage =
      [.refreshed ["a"] (.error "down"), .taken ["a"]] ++ .remembered 0 "a" :: [] := rfl
  refine ⟨hpast, fun hkept => (kept_iff_not_lost ⟨100, 8⟩ true outage hpast).1.mp hkept ?_⟩
  refine ⟨[.refreshed ["a"] (.error "down")], ["a"], [], "down", rfl, by simp, by simp, by simp, ?_⟩
  rintro ⟨newer, batch, older, outcome, hlater, -, hended⟩
  have hmem : Event.refreshed batch (.ok outcome) ∈
      [Event.refreshed ["a"] (.error "down"), .taken ["a"]] := by
    rw [hlater]
    exact List.mem_append_left _ hended
  simp at hmem

end System

end CodeAtlas.Tracker
