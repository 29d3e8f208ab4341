import CodeAtlas.Proofs.Embedding.Calls

/-!
# Where vectors and failures come from

Setup: a run sends texts to any provider at all, one that may remember things, fail at will, and
answer with too few or too many vectors. Two things are read off the calls of the run.

* A run that succeeds has one slot for each text, and the vector in a slot came from a call that was
  answered in full, at the place where the text or a start of it was sent
  (`Batching.forall₂_supplies_of_sendsAll`).
* A run ends with the first call that fails: one that the provider failed, or one that was answered
  with the wrong number of vectors (`Batching.ends_of_sendsAll`). Nothing is sent after it.

**`Batching.run_faithful`** puts them together, with what `embed` makes of the slots.
-/

namespace CodeAtlas

open CodeAtlas.Text

variable {σ V : Type}

/-! ## Failures -/

/-- A call fails the run that makes it. -/
inductive Call.Fails : Call V → EmbedError → Prop where
  /-- the provider failed -/
  | failed (asked : List String) (detail : String) :
      Fails ⟨asked, .error (.provider detail)⟩ (.provider detail)
  /-- too few or too many vectors came -/
  | miscounted {asked : List String} {vectors : List V} (length_ne : vectors.length ≠ asked.length)
      (inputs : String) : Fails ⟨asked, .ok vectors⟩ (Batching.miscount vectors.length inputs)

/-- A call does not fail the run that makes it. -/
def Call.Passes (call : Call V) : Prop :=
  ∀ e, ¬ call.Fails e

theorem Call.passes_tooLong (asked : List String) (detail : String) :
    (⟨asked, .error (.tooLong detail)⟩ : Call V).Passes := by
  intro e h
  cases h

theorem Call.passes_ok {asked : List String} {vectors : List V}
    (hlength : vectors.length = asked.length) : (⟨asked, .ok vectors⟩ : Call V).Passes := by
  intro e h
  cases h with
  | miscounted length_ne inputs => exact length_ne hlength

/-- A call that is failed or miscounted fails the run with an error of the provider. -/
theorem Call.Fails.eq_provider {call : Call V} {e : EmbedError} (h : call.Fails e) :
    ∃ detail, e = .provider detail := by
  cases h with
  | failed asked detail => exact ⟨detail, rfl⟩
  | miscounted length_ne inputs => exact ⟨_, rfl⟩

/-- Calls end with the first that fails, and a result is what this one says; without one there is a
value. -/
inductive Call.Ends {α : Type} : List (Call V) → Except EmbedError α → Prop where
  /-- no call failed -/
  | well {calls : List (Call V)} {value : α} (passed : ∀ call ∈ calls, call.Passes) :
      Ends calls (.ok value)
  /-- the last call failed, and no other did -/
  | badly {earlier : List (Call V)} {last : Call V} {e : EmbedError}
      (passed : ∀ call ∈ earlier, call.Passes) (failed : last.Fails e) :
      Ends (earlier ++ [last]) (.error e)

namespace Call.Ends

variable {α β : Type} {calls first : List (Call V)} {result : Except EmbedError α}

/-- A single failing call is an end. -/
theorem single {call : Call V} {e : EmbedError} (hfails : call.Fails e) :
    Ends (α := α) [call] (.error e) :=
  .badly (fun _ hmem => absurd hmem List.not_mem_nil) hfails

/-- Calls that pass may stand before. -/
theorem after (hfirst : ∀ call ∈ first, call.Passes) (h : Ends calls result) :
    Ends (first ++ calls) result := by
  cases h with
  | well passed =>
    exact .well fun call hcall => (List.mem_append.mp hcall).elim (hfirst call) (passed call)
  | badly passed failed =>
    rw [← List.append_assoc]
    exact .badly (fun call hcall => (List.mem_append.mp hcall).elim (hfirst call) (passed call))
      failed

/-- One call that passes may stand before. -/
theorem cons {call : Call V} (hcall : call.Passes) (h : Ends calls result) :
    Ends (call :: calls) result := by
  have hfirst : ∀ other ∈ [call], Passes other := by
    intro other hother
    rw [List.mem_singleton.mp hother]
    exact hcall
  exact h.after hfirst

/-- What is made of a value does not matter. -/
theorem map (f : α → β) (h : Ends calls result) : Ends calls (result.map f) := by
  cases h with
  | well passed => exact .well passed
  | badly passed failed => exact .badly passed failed

/-- No call fails where there is a value. -/
theorem passed_of_ok {value : α} (h : Ends calls (.ok value)) : ∀ call ∈ calls, call.Passes := by
  cases h with
  | well passed => exact passed

/-- A call that fails is the last one, and the result is what it says. -/
theorem of_fails {before after : List (Call V)} {call : Call V} {e : EmbedError}
    (h : Ends (before ++ call :: after) result) (hfails : call.Fails e) :
    after = [] ∧ ∃ e', call.Fails e' ∧ result = .error e' := by
  generalize hcalls : before ++ call :: after = calls at h
  cases h with
  | well passed => exact absurd hfails (passed call (hcalls ▸ by simp) e)
  | @badly earlier last e' passed failed =>
    -- any call but the last one passes
    rcases List.eq_nil_or_concat after with rfl | ⟨others, final, rfl⟩
    · obtain ⟨-, hlast⟩ := List.append_inj' hcalls rfl
      cases hlast
      exact ⟨rfl, e', failed, rfl⟩
    · rw [List.concat_eq_append, ← List.cons_append, ← List.append_assoc] at hcalls
      obtain ⟨hearlier, -⟩ := List.append_inj' hcalls rfl
      exact absurd hfails (passed call (hearlier ▸ by simp) e)

end Call.Ends

/-! ## Vectors -/

/-- A call is answered in full, and `v` stands where `sent` was sent. -/
def Call.Gives (call : Call V) (sent : String) (v : V) : Prop :=
  ∃ (vectors : List V) (j : Nat), call.answer = .ok vectors ∧
    vectors.length = call.asked.length ∧ call.asked[j]? = some sent ∧ vectors[j]? = some v

/-- A vector in the slot of a text was given for the text or a start of it. -/
def Call.Supplies (calls : List (Call V)) (text : String) (slot : Option V) : Prop :=
  ∀ v, slot = some v → ∃ call ∈ calls, ∃ sent, sent.toList <+: text.toList ∧ call.Gives sent v

/-- Other calls take nothing away. -/
theorem Call.Supplies.mono {calls more : List (Call V)} {text : String} {slot : Option V}
    (h : Supplies calls text slot) (hsub : calls ⊆ more) : Supplies more text slot := by
  intro v hv
  obtain ⟨call, hcall, hgives⟩ := h v hv
  exact ⟨call, hsub hcall, hgives⟩

/-- Texts that are sent in two parts are supplied when those of each part are. -/
theorem Call.supplies_of_parts {texts : List String} {n : Nat} {left right : List (Option V)}
    {leftCalls rightCalls calls : List (Call V)}
    (hleft : List.Forall₂ (Call.Supplies leftCalls) (texts.take n) left)
    (hright : List.Forall₂ (Call.Supplies rightCalls) (texts.drop n) right)
    (hleftSub : leftCalls ⊆ calls) (hrightSub : rightCalls ⊆ calls) :
    List.Forall₂ (Call.Supplies calls) texts (left ++ right) := by
  rw [← List.take_append_drop n texts]
  exact List.rel_append (hleft.imp fun _ _ h => h.mono hleftSub)
    (hright.imp fun _ _ h => h.mono hrightSub)

/-- The starts of a text are starts of it. -/
theorem ShrinkPolicy.toList_isPrefix_of_mem_starts {p : ShrinkPolicy} {text start : String}
    (h : start ∈ p.starts text) : start.toList <+: text.toList := by
  obtain ⟨n, -, rfl⟩ := List.mem_map.mp h
  rw [truncate, String.toList_ofList]
  exact List.take_prefix n text.toList

/-! ## One text -/

namespace ShrinkPolicy

variable {p : ShrinkPolicy} {calls : List (Call V)}

/-- Shortening ends with the first call that fails. -/
theorem ends_of_shortens {starts : List String} {result : Except EmbedError (Option V)}
    (h : Shortens starts calls result) : Call.Ends calls result := by
  induction h with
  | exhausted => exact .well fun _ hmem => absurd hmem List.not_mem_nil
  | fits v =>
    exact .well fun call hcall => List.mem_singleton.mp hcall ▸ Call.passes_ok rfl
  | miscounted length_ne => exact .single (.miscounted length_ne _)
  | failed detail => exact .single (.failed _ detail)
  | refused detail _ ih => exact ih.cons (Call.passes_tooLong _ detail)

/-- A vector that comes while a text is shortened was given for a start. -/
theorem gives_of_shortens {starts : List String} {result : Except EmbedError (Option V)} {v : V}
    (h : Shortens starts calls result) (hresult : result = .ok (some v)) :
    ∃ call ∈ calls, ∃ start ∈ starts, call.Gives start v := by
  induction h with
  | exhausted => cases hresult
  | fits v =>
    cases hresult
    exact ⟨_, List.mem_singleton_self _, _, List.mem_cons_self, [v], 0, rfl, rfl, rfl, rfl⟩
  | miscounted length_ne => cases hresult
  | failed detail => cases hresult
  | refused detail _ ih =>
    obtain ⟨call, hcall, start, hstart, hgives⟩ := ih hresult
    exact ⟨call, List.mem_cons_of_mem _ hcall, start, List.mem_cons_of_mem _ hstart, hgives⟩

/-! ## One batch -/

variable {chunk : List String}

/-- A batch ends with the first call that fails. -/
theorem ends_of_sends {result : Except EmbedError (List (Option V))}
    (h : p.Sends chunk calls result) :
    Call.Ends calls result := by
  induction h with
  | answered length_eq =>
    exact .well fun call hcall => List.mem_singleton.mp hcall ▸ Call.passes_ok length_eq
  | miscounted length_ne => exact .single (.miscounted length_ne _)
  | failed detail => exact .single (.failed _ detail)
  | nothing detail =>
    exact .well fun call hcall => List.mem_singleton.mp hcall ▸ Call.passes_tooLong _ detail
  | shortened detail starts =>
    exact ((ends_of_shortens starts).map _).cons (Call.passes_tooLong _ detail)
  | leftFails detail _ _ ih => exact ih.cons (Call.passes_tooLong _ detail)
  | halves detail _ _ _ ihLeft ihRight =>
    exact ((ihRight.map _).after ihLeft.passed_of_ok).cons (Call.passes_tooLong _ detail)

/-- The vectors of a full answer stand where their texts stand. -/
theorem forall₂_supplies_of_answer {vectors : List V} (hlength : vectors.length = chunk.length) :
    List.Forall₂ (Call.Supplies [⟨chunk, .ok vectors⟩]) chunk (vectors.map some) := by
  rw [List.forall₂_map_right_iff, List.forall₂_iff_get]
  refine ⟨hlength.symm, ?_⟩
  intro j hj hj' v hv
  cases hv
  exact ⟨_, List.mem_singleton_self _, chunk.get ⟨j, hj⟩, List.prefix_rfl, vectors, j, rfl, hlength,
    List.getElem?_eq_getElem hj, List.getElem?_eq_getElem hj'⟩

/-- The vectors of a batch were given for its texts. -/
theorem forall₂_supplies_of_sends {result : Except EmbedError (List (Option V))}
    {slots : List (Option V)} (h : p.Sends chunk calls result) (hresult : result = .ok slots) :
    List.Forall₂ (Call.Supplies calls) chunk slots := by
  induction h generalizing slots with
  | answered length_eq =>
    cases hresult
    exact forall₂_supplies_of_answer length_eq
  | miscounted length_ne => cases hresult
  | failed detail => cases hresult
  | nothing detail =>
    cases hresult
    exact .nil
  | @shortened text calls result detail starts =>
    cases result with
    | error e => cases hresult
    | ok slot =>
      cases hresult
      refine .cons ?_ .nil
      intro v hv
      cases hv
      obtain ⟨call, hcall, start, hstart, hgives⟩ := gives_of_shortens starts rfl
      exact ⟨call, List.mem_cons_of_mem _ hcall, start, toList_isPrefix_of_mem_starts hstart,
        hgives⟩
  | leftFails detail _ _ ih => cases hresult
  | @halves chunk leftCalls rightCalls left result detail _ _ _ ihLeft ihRight =>
    cases result with
    | error e => cases hresult
    | ok right =>
      cases hresult
      exact Call.supplies_of_parts (ihLeft rfl) (ihRight rfl)
        (fun call hcall => List.mem_cons_of_mem _ (List.mem_append_left _ hcall))
        (fun call hcall => List.mem_cons_of_mem _ (List.mem_append_right _ hcall))

end ShrinkPolicy

/-! ## All batches -/

namespace Batching

variable {b : Batching} {texts : List String} {calls : List (Call V)}

/-- A run ends with the first call that fails. -/
theorem ends_of_sendsAll {result : Except EmbedError (List (Option V))}
    (h : b.SendsAll texts calls result) : Call.Ends calls result := by
  induction h with
  | done => exact .well fun _ hmem => absurd hmem List.not_mem_nil
  | fails _ first => exact ShrinkPolicy.ends_of_sends first
  | next _ first _ ih => exact (ih.map _).after (ShrinkPolicy.ends_of_sends first).passed_of_ok

/-- The vectors of a run were given for its texts. -/
theorem forall₂_supplies_of_sendsAll {result : Except EmbedError (List (Option V))}
    {slots : List (Option V)} (h : b.SendsAll texts calls result) (hresult : result = .ok slots) :
    List.Forall₂ (Call.Supplies calls) texts slots := by
  induction h generalizing slots with
  | done =>
    cases hresult
    exact .nil
  | fails _ first => cases hresult
  | @next texts firstCalls laterCalls left result _ first _ ih =>
    cases result with
    | error e => cases hresult
    | ok right =>
      cases hresult
      exact Call.supplies_of_parts (ShrinkPolicy.forall₂_supplies_of_sends first rfl) (ih rfl)
        (List.subset_append_left _ _) (List.subset_append_right _ _)

/-! ## Slots without gaps -/

/-- Slots are filled exactly when none is empty. -/
theorem fill_eq_ok_iff {i : Nat} {slots : List (Option V)} {vectors : List V} :
    b.fill i slots = .ok vectors ↔ slots = vectors.map some := by
  induction slots generalizing i vectors with
  | nil =>
    rw [fill]
    cases vectors with
    | nil => simp
    | cons v vectors => simp
  | cons slot slots ih =>
    cases slot with
    | none =>
      rw [fill]
      cases vectors with
      | nil => simp
      | cons v vectors => simp
    | some w =>
      rw [fill]
      cases vectors with
      | nil =>
        cases b.fill (i + 1) slots with
        | ok more => simp [Except.map]
        | error e => simp [Except.map]
      | cons v vectors =>
        rw [List.map_cons, List.cons.injEq, ← ih (i := i + 1)]
        cases b.fill (i + 1) slots with
        | ok more => simp [Except.map]
        | error e => simp [Except.map]

/-- The first empty slot is an error that names its place. -/
theorem fill_of_none {i k : Nat} {slots : List (Option V)} (hk : slots[k]? = some none)
    (hfirst : ∀ j < k, slots[j]? ≠ some none) :
    b.fill i slots =
      .error
        (.tooLong s!"input {i + k} still too long after {b.policy.retries} shrink retries") := by
  induction slots generalizing i k with
  | nil => simp at hk
  | cons slot slots ih =>
    cases k with
    | zero =>
      cases hk
      rfl
    | succ k =>
      cases slot with
      | none => exact absurd rfl (hfirst 0 (Nat.succ_pos k))
      | some v =>
        rw [fill, ih hk fun j hj => hfirst (j + 1) (Nat.succ_lt_succ hj),
          Nat.add_right_comm i 1 k, Nat.add_assoc i k 1]
        rfl

/-- There is a first empty slot when there is an empty slot. -/
theorem exists_first_none {slots : List (Option V)} (h : none ∈ slots) :
    ∃ k : Nat, slots[k]? = some none ∧ ∀ j < k, slots[j]? ≠ some none := by
  classical
  have hsome : ∃ k : Nat, slots[k]? = some none := List.mem_iff_getElem?.mp h
  exact ⟨Nat.find hsome, Nat.find_spec hsome, fun j hj => Nat.find_min hsome hj⟩

/-- The vectors of a run without empty slots are those of the slots, and a failed run stays failed.
-/
theorem embed_eq (b : Batching) (provider : Provider σ V) (texts : List String) (s : σ) :
    b.embed provider texts s =
      ((b.embedLenient provider texts s).1.bind (b.fill 0),
        (b.embedLenient provider texts s).2) := by
  rw [embed]
  rcases b.embedLenient provider texts s with ⟨_ | slots, s'⟩
  · rfl
  · rfl

/-! ## The whole run -/

/-- **What a run makes of its calls**, whatever the provider does:

* where it succeeds there is one slot for each text, and the vector in a slot was given for the text
  of that slot or for a start of it;
* an answer with the wrong number of vectors is a failure of the provider;
* the first other failure is the result, and nothing is sent after it;
* `embed` has the same vectors when no slot is empty, and otherwise names the first empty one. -/
theorem embedLenient_faithful (b : Batching) (provider : Provider σ V) (texts : List String)
    (s : σ) :
    (∀ slots, (b.embedLenient provider texts s).1 = .ok slots →
      slots.length = texts.length ∧
      ∀ (i : Nat) (v : V), slots[i]? = some (some v) →
        ∃ text, texts[i]? = some text ∧ ∃ call ∈ b.calls provider texts s,
          ∃ sent, sent.toList <+: text.toList ∧ call.Gives sent v) ∧
    (∀ call ∈ b.calls provider texts s, ∀ vectors, call.answer = .ok vectors →
      vectors.length ≠ call.asked.length →
        ∃ detail, (b.embedLenient provider texts s).1 = .error (.provider detail)) ∧
    (∀ before call after detail, b.calls provider texts s = before ++ call :: after →
      call.answer = .error (.provider detail) →
        after = [] ∧ (b.embedLenient provider texts s).1 = .error (.provider detail)) ∧
    (∀ vectors, (b.embed provider texts s).1 = .ok vectors ↔
      (b.embedLenient provider texts s).1 = .ok (vectors.map some)) ∧
    (∀ slots, (b.embedLenient provider texts s).1 = .ok slots → none ∈ slots →
      ∃ i : Nat, slots[i]? = some none ∧ (∀ j < i, slots[j]? ≠ some none) ∧
        (b.embed provider texts s).1 = .error
          (.tooLong s!"input {i} still too long after {b.policy.retries} shrink retries")) ∧
    ∀ e, (b.embedLenient provider texts s).1 = .error e →
      (b.embed provider texts s).1 = .error e := by
  have hcalls := sendsAll_calls provider b texts s
  have hends := ends_of_sendsAll hcalls
  have hembed := congrArg Prod.fst (b.embed_eq provider texts s)
  refine ⟨?_, ?_, ?_, ?_, ?_, ?_⟩
  · intro slots hslots
    have hall := forall₂_supplies_of_sendsAll hcalls hslots
    refine ⟨hall.length_eq.symm, ?_⟩
    intro i v hv
    obtain ⟨hi, hslot⟩ := List.getElem?_eq_some_iff.mp hv
    have hi' : i < texts.length := hall.length_eq ▸ hi
    exact ⟨texts[i], List.getElem?_eq_getElem hi', hall.get hi' hi v hslot⟩
  · intro call hcall vectors hanswer hlength
    obtain ⟨before, after, hsplit⟩ := List.append_of_mem hcall
    rw [hsplit] at hends
    have hfails : call.Fails (miscount vectors.length "") := by
      obtain ⟨asked, answer⟩ := call
      cases hanswer
      exact .miscounted hlength ""
    obtain ⟨-, e, he, hresult⟩ := hends.of_fails hfails
    obtain ⟨detail, rfl⟩ := he.eq_provider
    exact ⟨detail, hresult⟩
  · intro before call after detail hsplit hanswer
    rw [hsplit] at hends
    obtain ⟨asked, answer⟩ := call
    cases hanswer
    obtain ⟨hafter, e, he, hresult⟩ := hends.of_fails (.failed asked detail)
    cases he
    exact ⟨hafter, hresult⟩
  · intro vectors
    rw [hembed]
    cases (b.embedLenient provider texts s).1 with
    | ok slots => simp [Except.bind, fill_eq_ok_iff]
    | error e => simp [Except.bind]
  · intro slots hslots hnone
    obtain ⟨i, hi, hfirst⟩ := exists_first_none hnone
    refine ⟨i, hi, hfirst, ?_⟩
    have hfill := fill_of_none (b := b) (i := 0) hi hfirst
    rw [Nat.zero_add] at hfill
    rw [hembed, hslots]
    exact hfill
  · intro e he
    rw [hembed, he]
    rfl

end Batching

/-! ## A provider of prepared answers -/

/-- A provider that gives prepared answers, and fails when they are used up. -/
def Provider.scripted : Provider (List (Except EmbedError (List V))) V where
  name := "scripted"
  embed _ answers :=
    match answers with
    | [] => (.error (.provider "no answer"), [])
    | answer :: later => (answer, later)

/-- Two texts that are too long together, the second of them also alone; an answer without a vector;
and a provider that has no answer. -/
theorem Batching.embedLenient_faithful_scripted :
    let b : Batching := ⟨2, ⟨0.5, 0⟩, Nat.two_pos⟩
    let gap : List (Except EmbedError (List Nat)) :=
      [.error (.tooLong "both"), .ok [7], .error (.tooLong "one")]
    (∃ call ∈ b.calls Provider.scripted ["a", "b"] gap,
        ∃ sent, sent.toList <+: ['a'] ∧ call.Gives sent 7) ∧
      (b.embed Provider.scripted ["a", "b"] gap).1 =
        .error (.tooLong "input 1 still too long after 0 shrink retries") ∧
      (∃ detail, (b.embedLenient Provider.scripted ["a"] [.ok ([] : List Nat)]).1 =
        .error (.provider detail)) ∧
      (b.embedLenient Provider.scripted ["a"] ([] : List (Except EmbedError (List Nat)))).1 =
        .error (.provider "no answer") := by
  intro b gap
  have hslots : (b.embedLenient Provider.scripted ["a", "b"] gap).1 = .ok [some 7, none] := by
    simp [b, gap, embedLenient, embedBatches, embedChunk, shrink, Provider.scripted]
  have hgap := embedLenient_faithful b Provider.scripted ["a", "b"] gap
  have hempty := embedLenient_faithful b Provider.scripted ["a"] [.ok ([] : List Nat)]
  have hgone := embedLenient_faithful b Provider.scripted ["a"]
    ([] : List (Except EmbedError (List Nat)))
  refine ⟨?_, ?_, ?_, ?_⟩
  · obtain ⟨text, htext, hgiven⟩ := (hgap.1 _ hslots).2 0 7 rfl
    cases htext
    exact hgiven
  · obtain ⟨i, hi, hfirst, hembed⟩ := hgap.2.2.2.2.1 _ hslots (by simp)
    rcases i with _ | _ | i
    · cases hi
    · rw [hembed]
      decide +kernel
    · cases hi
  · refine hempty.2.1 ⟨["a"], .ok []⟩ ?_ [] rfl (by decide)
    simp [b, calls, embedLenient, embedBatches, embedChunk, Provider.recorded, Provider.scripted]
  · refine (hgone.2.2.1 [] ⟨["a"], .error (.provider "no answer")⟩ [] "no answer" ?_ rfl).2
    simp [b, calls, embedLenient, embedBatches, embedChunk, Provider.recorded, Provider.scripted]

end CodeAtlas
