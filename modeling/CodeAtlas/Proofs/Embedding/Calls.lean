import CodeAtlas.Proofs.Embedding.Stateless

/-!
# The calls of one run

A run sends texts to a provider, and what it makes of the answers can only be judged beside the
calls that were made. `Provider.recorded` is a provider that writes down each call, and
`Batching.calls` is what it has written at the end of a run.

The three levels of a run are described by the calls they make and the result they come to:

* `ShrinkPolicy.Shortens` — the starts of one text, one call for each;
* `ShrinkPolicy.Sends` — one batch, in halves if it is too long;
* `Batching.SendsAll` — the batches of one run.

**`Batching.sendsAll_calls`** says that every run is one of these, whatever the provider does.
Nothing else about the provider's answers is ever needed, so what follows from the calls is proved
by induction over these descriptions.
-/

namespace CodeAtlas

open CodeAtlas.Text

variable {σ V : Type}

/-- One call to a provider. -/
structure Call (V : Type) where
  /-- the texts that were sent -/
  asked : List String
  /-- what came back -/
  answer : Except EmbedError (List V)

/-- A provider that also writes down its calls. -/
def Provider.recorded (provider : Provider σ V) : Provider (σ × List (Call V)) V where
  name := provider.name
  embed texts state :=
    match provider.embed texts state.1 with
    | (answer, s) => (answer, s, state.2 ++ [⟨texts, answer⟩])

theorem Provider.embed_recorded {provider : Provider σ V} {texts : List String} {s s' : σ}
    {answer : Except EmbedError (List V)} (h : provider.embed texts s = (answer, s'))
    (log : List (Call V)) :
    provider.recorded.embed texts (s, log) = (answer, s', log ++ [⟨texts, answer⟩]) := by
  simp only [Provider.recorded, h]

/-- The calls of one run, in order. -/
def Batching.calls (b : Batching) (provider : Provider σ V) (texts : List String) (s : σ) :
    List (Call V) :=
  (b.embedLenient provider.recorded texts (s, [])).2.2

namespace ShrinkPolicy

/-- The starts of a text are sent one after the other, each by itself, until one is not too long. -/
inductive Shortens : List String → List (Call V) → Except EmbedError (Option V) → Prop where
  /-- there is no further start -/
  | exhausted : Shortens [] [] (.ok none)
  /-- a vector comes for the start -/
  | fits {start : String} {later : List String} (v : V) :
      Shortens (start :: later) [⟨[start], .ok [v]⟩] (.ok (some v))
  /-- something else than one vector comes -/
  | miscounted {start : String} {later : List String} {vectors : List V}
      (length_ne : vectors.length ≠ 1) :
      Shortens (start :: later) [⟨[start], .ok vectors⟩]
        (.error (Batching.miscount vectors.length "1 input"))
  /-- the provider fails -/
  | failed {start : String} {later : List String} (detail : String) :
      Shortens (start :: later) [⟨[start], .error (.provider detail)⟩] (.error (.provider detail))
  /-- the start is too long, and the next one is tried -/
  | refused {start : String} {later : List String} {calls : List (Call V)}
      {result : Except EmbedError (Option V)} (detail : String)
      (next : Shortens later calls result) :
      Shortens (start :: later) (⟨[start], .error (.tooLong detail)⟩ :: calls) result

/-- A batch is sent, and what is too long is sent again in parts. -/
inductive Sends (p : ShrinkPolicy) :
    List String → List (Call V) → Except EmbedError (List (Option V)) → Prop where
  /-- a vector comes for each text -/
  | answered {chunk : List String} {vectors : List V} (length_eq : vectors.length = chunk.length) :
      Sends p chunk [⟨chunk, .ok vectors⟩] (.ok (vectors.map some))
  /-- too few or too many vectors come -/
  | miscounted {chunk : List String} {vectors : List V}
      (length_ne : vectors.length ≠ chunk.length) :
      Sends p chunk [⟨chunk, .ok vectors⟩]
        (.error (Batching.miscount vectors.length s!"{chunk.length} inputs"))
  /-- the provider fails -/
  | failed {chunk : List String} (detail : String) :
      Sends p chunk [⟨chunk, .error (.provider detail)⟩] (.error (.provider detail))
  /-- a batch of nothing is too long -/
  | nothing (detail : String) : Sends p [] [⟨[], .error (.tooLong detail)⟩] (.ok [])
  /-- a single text is too long, and its starts are sent -/
  | shortened {text : String} {calls : List (Call V)} {result : Except EmbedError (Option V)}
      (detail : String) (starts : Shortens (p.starts text) calls result) :
      Sends p [text] (⟨[text], .error (.tooLong detail)⟩ :: calls) (result.map ([·]))
  /-- a longer batch is too long, and its first half fails -/
  | leftFails {chunk : List String} {calls : List (Call V)} {e : EmbedError} (detail : String)
      (two_le : 2 ≤ chunk.length)
      (left : Sends p (chunk.take (chunk.length / 2)) calls (.error e)) :
      Sends p chunk (⟨chunk, .error (.tooLong detail)⟩ :: calls) (.error e)
  /-- a longer batch is too long, and its first half gets through before the other is sent -/
  | halves {chunk : List String} {leftCalls rightCalls : List (Call V)} {slots : List (Option V)}
      {result : Except EmbedError (List (Option V))} (detail : String) (two_le : 2 ≤ chunk.length)
      (left : Sends p (chunk.take (chunk.length / 2)) leftCalls (.ok slots))
      (right : Sends p (chunk.drop (chunk.length / 2)) rightCalls result) :
      Sends p chunk (⟨chunk, .error (.tooLong detail)⟩ :: (leftCalls ++ rightCalls))
        (result.map (slots ++ ·))

end ShrinkPolicy

namespace Batching

/-- The batches of a run are sent one after the other until one fails. -/
inductive SendsAll (b : Batching) :
    List String → List (Call V) → Except EmbedError (List (Option V)) → Prop where
  /-- nothing is left -/
  | done : SendsAll b [] [] (.ok [])
  /-- the first batch fails -/
  | fails {texts : List String} {calls : List (Call V)} {e : EmbedError} (ne_nil : texts ≠ [])
      (first : b.policy.Sends (texts.take b.size) calls (.error e)) :
      SendsAll b texts calls (.error e)
  /-- the first batch gets through before the others are sent -/
  | next {texts : List String} {firstCalls laterCalls : List (Call V)} {slots : List (Option V)}
      {result : Except EmbedError (List (Option V))} (ne_nil : texts ≠ [])
      (first : b.policy.Sends (texts.take b.size) firstCalls (.ok slots))
      (later : SendsAll b (texts.drop b.size) laterCalls result) :
      SendsAll b texts (firstCalls ++ laterCalls) (result.map (slots ++ ·))

/-! ## Every run is described

Each lemma says two things of one level: a record changes neither the result nor the provider, and
the calls that it gains are described. -/

section Equations

variable {provider : Provider σ V} {p : ShrinkPolicy} {s s₁ : σ} {detail : String}

/-- A single text that is too long is shortened. -/
theorem embedChunk_of_single {text : String}
    (hcall : provider.embed [text] s = (.error (.tooLong detail), s₁)) :
    embedChunk provider p [text] s =
      ((shrink provider p text p.retries text.length s₁).1.map ([·]),
        (shrink provider p text p.retries text.length s₁).2) := by
  rw [embedChunk, hcall]
  simp only
  rcases shrink provider p text p.retries text.length s₁ with ⟨_ | slot, s₂⟩
  · rfl
  · rfl

/-- A longer batch that is too long is sent in halves. -/
theorem embedChunk_of_two_le {chunk : List String} (htwo : 2 ≤ chunk.length)
    (hcall : provider.embed chunk s = (.error (.tooLong detail), s₁)) :
    embedChunk provider p chunk s =
      match embedChunk provider p (chunk.take (chunk.length / 2)) s₁ with
      | (.error e, s₂) => (.error e, s₂)
      | (.ok slots, s₂) =>
        ((embedChunk provider p (chunk.drop (chunk.length / 2)) s₂).1.map (slots ++ ·),
          (embedChunk provider p (chunk.drop (chunk.length / 2)) s₂).2) := by
  match chunk, htwo with
  | first :: second :: rest, _ =>
    rw [embedChunk, hcall]
    simp only
    rcases embedChunk provider p _ s₁ with ⟨_ | slots, s₂⟩
    · rfl
    · simp only
      rcases embedChunk provider p _ s₂ with ⟨_ | more, s₃⟩
      · rfl
      · rfl

/-- The first batch of a run is sent before the others. -/
theorem embedLenient_of_ne_nil {b : Batching} {texts : List String} (hne : texts ≠ []) :
    b.embedLenient provider texts s =
      match embedChunk provider b.policy (texts.take b.size) s with
      | (.error e, s₁) => (.error e, s₁)
      | (.ok slots, s₁) =>
        ((b.embedLenient provider (texts.drop b.size) s₁).1.map (slots ++ ·),
          (b.embedLenient provider (texts.drop b.size) s₁).2) := by
  match texts, hne with
  | text :: rest, _ =>
    simp only [embedLenient]
    rw [embedBatches]
    rcases embedChunk provider b.policy _ s with ⟨_ | slots, s₁⟩
    · rfl
    · simp only
      rcases embedBatches provider b.policy b.size b.size_pos _ s₁ with ⟨_ | more, s₂⟩
      · rfl
      · rfl

end Equations

variable (provider : Provider σ V) (p : ShrinkPolicy)

/-- The attempts are counted down while the length changes, so the induction is over the attempts,
for every length. -/
theorem shortens_shrink (text : String) (retries length : Nat) (s : σ) (log : List (Call V)) :
    ∃ calls,
      shrink provider.recorded p text retries length (s, log) =
        ((shrink provider p text retries length s).1, (shrink provider p text retries length s).2,
          log ++ calls) ∧
      ShrinkPolicy.Shortens (p.startsFrom text retries length) calls
        (shrink provider p text retries length s).1 := by
  induction retries generalizing length s log with
  | zero => exact ⟨[], by rw [List.append_nil]; rfl, .exhausted⟩
  | succ retries ih =>
    rw [shrink, shrink]
    by_cases hzero : p.next length = 0
    · rw [ShrinkPolicy.startsFrom_of_eq_zero hzero]
      simp only [if_pos hzero]
      exact ⟨[], by rw [List.append_nil], .exhausted⟩
    · rw [ShrinkPolicy.startsFrom_of_ne_zero hzero]
      simp only [if_neg hzero]
      rcases hcall : provider.embed [truncate text (p.next length)] s with ⟨answer, s₁⟩
      rw [Provider.embed_recorded hcall]
      cases answer with
      | ok vectors =>
        rcases vectors with _ | ⟨v, _ | ⟨w, rest⟩⟩
        · exact ⟨_, rfl, .miscounted (by simp)⟩
        · exact ⟨_, rfl, .fits v⟩
        · exact ⟨_, rfl, .miscounted (by simp)⟩
      | error cause =>
        cases cause with
        | provider detail => exact ⟨_, rfl, .failed detail⟩
        | tooLong detail =>
          obtain ⟨calls, hrun, hcalls⟩ := ih (p.next length) s₁
            (log ++ [⟨[truncate text (p.next length)], .error (.tooLong detail)⟩])
          refine ⟨_ :: calls, ?_, .refused detail hcalls⟩
          rw [List.append_assoc] at hrun
          exact hrun

/-- Both halves of a batch are shorter, so the induction is over its length. -/
theorem sends_embedChunk (chunk : List String) (s : σ) (log : List (Call V)) :
    ∃ calls,
      embedChunk provider.recorded p chunk (s, log) =
        ((embedChunk provider p chunk s).1, (embedChunk provider p chunk s).2, log ++ calls) ∧
      p.Sends chunk calls (embedChunk provider p chunk s).1 := by
  induction hn : chunk.length using Nat.strong_induction_on generalizing chunk s log with
  | _ n ih =>
    subst hn
    rcases hcall : provider.embed chunk s with ⟨answer, s₁⟩
    have hrecorded := Provider.embed_recorded hcall log
    cases answer with
    | ok vectors =>
      rw [embedChunk, embedChunk, hcall, hrecorded]
      by_cases hlength : vectors.length = chunk.length
      · simp only [if_pos hlength]
        exact ⟨_, rfl, .answered hlength⟩
      · simp only [if_neg hlength]
        exact ⟨_, rfl, .miscounted hlength⟩
    | error cause =>
      cases cause with
      | provider detail =>
        rw [embedChunk, embedChunk, hcall, hrecorded]
        exact ⟨_, rfl, .failed detail⟩
      | tooLong detail =>
        rcases Nat.lt_or_ge chunk.length 2 with hshort | htwo
        · rcases chunk with _ | ⟨text, _ | ⟨next, rest⟩⟩
          · rw [embedChunk, embedChunk, hcall, hrecorded]
            exact ⟨_, rfl, .nothing detail⟩
          · rw [embedChunk_of_single hcall, embedChunk_of_single hrecorded]
            obtain ⟨calls, hrun, hcalls⟩ := shortens_shrink provider p text p.retries text.length s₁
              (log ++ [⟨[text], .error (.tooLong detail)⟩])
            rw [hrun, List.append_assoc]
            exact ⟨_, rfl, .shortened detail hcalls⟩
          · simp at hshort
        · rw [embedChunk_of_two_le htwo hcall, embedChunk_of_two_le htwo hrecorded]
          obtain ⟨leftCalls, hleftRun, hleft⟩ := ih _ (by rw [List.length_take]; omega)
            (chunk.take (chunk.length / 2)) s₁ (log ++ [⟨chunk, .error (.tooLong detail)⟩]) rfl
          rw [hleftRun, List.append_assoc]
          generalize embedChunk provider p (chunk.take (chunk.length / 2)) s₁ = first at hleft ⊢
          rcases first with ⟨_ | slots, s₂⟩
          · exact ⟨_, rfl, .leftFails detail htwo hleft⟩
          · obtain ⟨rightCalls, hrightRun, hright⟩ := ih _ (by rw [List.length_drop]; omega)
              (chunk.drop (chunk.length / 2)) s₂
              (log ++ ([⟨chunk, .error (.tooLong detail)⟩] ++ leftCalls)) rfl
            simp only [hrightRun]
            rw [List.append_assoc]
            exact ⟨_, rfl, .halves detail htwo hleft hright⟩

/-- What is left after a batch is shorter, so the induction is over the number of texts. -/
theorem sendsAll_embedLenient (b : Batching) (texts : List String) (s : σ) (log : List (Call V)) :
    ∃ calls,
      b.embedLenient provider.recorded texts (s, log) =
        ((b.embedLenient provider texts s).1, (b.embedLenient provider texts s).2, log ++ calls) ∧
      b.SendsAll texts calls (b.embedLenient provider texts s).1 := by
  induction hn : texts.length using Nat.strong_induction_on generalizing texts s log with
  | _ n ih =>
    subst hn
    rcases eq_or_ne texts [] with rfl | hne
    · refine ⟨[], ?_, ?_⟩
      · rw [embedLenient, embedLenient, embedBatches, embedBatches, List.append_nil]
      · rw [embedLenient, embedBatches]
        exact .done
    · have hsize := b.size_pos
      have hlength := List.length_pos_iff.mpr hne
      rw [embedLenient_of_ne_nil hne, embedLenient_of_ne_nil hne]
      obtain ⟨firstCalls, hfirstRun, hfirst⟩ :=
        sends_embedChunk provider b.policy (texts.take b.size) s log
      rw [hfirstRun]
      generalize embedChunk provider b.policy (texts.take b.size) s = first at hfirst ⊢
      rcases first with ⟨_ | slots, s₁⟩
      · exact ⟨_, rfl, .fails hne hfirst⟩
      · obtain ⟨laterCalls, hlaterRun, hlater⟩ := ih _ (by rw [List.length_drop]; omega)
          (texts.drop b.size) s₁ (log ++ firstCalls) rfl
        simp only [hlaterRun]
        rw [List.append_assoc]
        exact ⟨_, rfl, .next hne hfirst hlater⟩

variable (b : Batching) (texts : List String) (s : σ)

/-- A record changes neither what a run comes to nor the provider. -/
theorem embedLenient_recorded :
    b.embedLenient provider.recorded texts (s, []) =
      ((b.embedLenient provider texts s).1, (b.embedLenient provider texts s).2,
        b.calls provider texts s) := by
  obtain ⟨calls, hrun, -⟩ := sendsAll_embedLenient provider b texts s []
  rw [Batching.calls, hrun]

/-- **The calls of a run** are the described ones. -/
theorem sendsAll_calls :
    b.SendsAll texts (b.calls provider texts s) (b.embedLenient provider texts s).1 := by
  obtain ⟨calls, hrun, hcalls⟩ := sendsAll_embedLenient provider b texts s []
  rw [Batching.calls, hrun]
  exact hcalls

end Batching

end CodeAtlas
