import CodeAtlas.Proofs.Embedding.Provenance
import CodeAtlas.Proofs.Index.Rebuild
import CodeAtlas.Proofs.Service.Age

/-!
# A failure that nobody sees

Setup: a service is asked for an index, and its provider fails one of the calls that are made for
it, perhaps the last of many. The calls are those that a provider writes down which is put in its
place (`Service.fileCalls`, `Service.identifierCalls`). Then:

* there is no index, and the error is that of the call;
* nothing that was made before the failure is kept: the disk is as it was, with both caches, and so
  are the slots of both indexes, whether what stands in them is fresh or not;
* only the corpus may be new. Whoever asks later, with whatever provider, is answered as if nobody
  had asked before, as long as the same is collected from the tree (`Service.Unseen`).

**`Service.unseen_of_failed`** says this of both indexes. They are made in one way (`Recipe`), so it
is proved once: `Recipe.comesTo` is what asking comes to, and does not look at how the slots are
kept.
-/

namespace CodeAtlas

variable {σ τ ℓ α : Type}

/-! ## Filling a cache by calls -/

namespace Batching

variable {b : Batching} {provider : Provider σ Embedding} {texts : List String} {s : σ}

/-- Nothing is sent when there are no texts. -/
theorem calls_nil (b : Batching) (provider : Provider σ Embedding) (s : σ) :
    b.calls provider [] s = [] := by
  rw [calls, embedLenient, embedBatches]

/-- A run fails with what one of its calls fails with. -/
theorem embedLenient_of_fails {call : Call Embedding} {e : EmbedError}
    (hcall : call ∈ b.calls provider texts s) (hfails : call.Fails e) :
    ∃ e', call.Fails e' ∧ (b.embedLenient provider texts s).1 = .error e' := by
  have hends := ends_of_sendsAll (sendsAll_calls provider b texts s)
  obtain ⟨before, after, hsplit⟩ := List.append_of_mem hcall
  rw [hsplit] at hends
  exact (hends.of_fails hfails).2

/-- A run none of whose calls fails has an answer. -/
theorem embedLenient_of_passes (h : ∀ call ∈ b.calls provider texts s, call.Passes) :
    ∃ slots, (b.embedLenient provider texts s).1 = .ok slots := by
  have hends := ends_of_sendsAll (sendsAll_calls provider b texts s)
  generalize b.calls provider texts s = calls at h hends
  generalize (b.embedLenient provider texts s).1 = result at hends ⊢
  cases hends with
  | @well _ slots _ => exact ⟨slots, rfl⟩
  | @badly _ last e _ failed => exact absurd failed (h last (by simp) e)

end Batching

namespace Cache

variable {b : Batching} {provider : Provider σ Embedding} {items : List Item} {m : Cache} {s : σ}

/-- The texts that are sent when items are filled in. -/
def asks (m : Cache) (items : List Item) : List String :=
  (m.missing items).map Item.text

/-- A record of the calls changes nothing. -/
theorem fill_recorded (b : Batching) (provider : Provider σ Embedding) (items : List Item)
    (m : Cache) (s : σ) : m.fill b provider.recorded items (s, []) =
      ((m.fill b provider items s).1, (m.fill b provider items s).2,
        b.calls provider (m.asks items) s) := by
  rw [fill, fill, asks]
  by_cases hnone : m.missing items = []
  · simp [hnone, Batching.calls_nil]
  · simp only [List.isEmpty_eq_false_iff.mpr hnone, Bool.false_eq_true, if_false,
      Batching.embedLenient_recorded]
    rcases b.embedLenient provider ((m.missing items).map Item.text) s with ⟨e | answers, s'⟩
    · rfl
    · rfl

/-- Filling fails with what one of the calls fails with. -/
theorem fill_of_fails {call : Call Embedding} {e : EmbedError}
    (hcall : call ∈ b.calls provider (m.asks items) s) (hfails : call.Fails e) :
    ∃ e', call.Fails e' ∧ (m.fill b provider items s).1 = .error e' := by
  obtain ⟨e', hfails', herror⟩ := Batching.embedLenient_of_fails hcall hfails
  refine ⟨e', hfails', ?_⟩
  rcases fill_cases b provider items m s with
    ⟨hnone, -⟩ | ⟨answers, s', hrun, -⟩ | ⟨e'', s', hrun, hfill⟩
  · rw [asks, hnone, List.map_nil, Batching.calls_nil] at hcall
    cases hcall
  · rw [asks, hrun] at herror
    cases herror
  · rw [asks, hrun] at herror
    cases herror
    rw [hfill]

/-- Items are filled in when no call fails. -/
theorem fill_of_passes (h : ∀ call ∈ b.calls provider (m.asks items) s, call.Passes) :
    ∃ filled, (m.fill b provider items s).1 = .ok filled := by
  obtain ⟨slots, hslots⟩ := Batching.embedLenient_of_passes h
  rcases fill_cases b provider items m s with
    ⟨-, hfill⟩ | ⟨answers, s', -, hfill⟩ | ⟨e, s', hrun, -⟩
  · exact ⟨_, by rw [hfill]⟩
  · exact ⟨_, by rw [hfill]⟩
  · rw [asks, hrun] at hslots
    cases hslots

end Cache

/-! ## Making an index -/

/-- How an index is made of a corpus. -/
structure Recipe (α : Type) where
  /-- the cache that is filled -/
  kind : CacheKind
  /-- with what -/
  items : Corpus → List Item
  /-- the keys that are kept -/
  wanted : Corpus → String → Bool
  /-- the index of what was filled in, and of the number of keys that were dropped -/
  make : Corpus → Filled → Nat → α

namespace Recipe

/-- The index of files. -/
def files : Recipe FileIndex :=
  ⟨.files, Corpus.fileItems, Corpus.keepsFile, Indexer.fileIndexOf⟩

/-- The index of identifiers. -/
def identifiers : Recipe IdentifierIndex :=
  ⟨.identifiers, Corpus.identifierItems, Corpus.keepsIdentifier, Indexer.identifierIndexOf⟩

/-- The index is made by a pass. -/
def build (r : Recipe α) (ix : Indexer σ) (c : Corpus) : Work σ EmbedError α :=
  (fun result => r.make c result.1 result.2) <$> ix.pass r.kind (r.items c) (r.wanted c)

theorem build_files (ix : Indexer σ) : files.build ix = ix.buildFiles :=
  funext fun c => (Indexer.buildFiles_eq_map ix c).symm

theorem build_identifiers (ix : Indexer σ) : identifiers.build ix = ix.buildIdentifiers :=
  funext fun c => (Indexer.buildIdentifiers_eq_map ix c).symm

/-- What an indexer fills in for an index. -/
def fill (r : Recipe α) (ix : Indexer σ) (c : Corpus) (w : World σ) :
    Except EmbedError Filled × σ :=
  (ix.store.load r.kind w.disk).fill ix.batching ix.provider (r.items c) w.memory

section Build

variable {r : Recipe α} {ix : Indexer σ} {c : Corpus} {w : World σ} {s : σ}

/-- The index is made of what was filled in, and the rest of it saved. -/
theorem build_of_fill {filled : Filled} (h : r.fill ix c w = (.ok filled, s)) :
    r.build ix c w = .ok (r.make c filled (filled.cache.prune (r.wanted c)).1)
      ⟨ix.savedCache r.kind (filled.cache.prune (r.wanted c)).2 w.disk, s⟩ := by
  simp only [build, Functor.map, EStateM.map, Indexer.pass_of_fill h]

/-- Otherwise there is none, and the disk is left as it was. -/
theorem build_of_unfilled {e : EmbedError} (h : r.fill ix c w = (.error e, s)) :
    r.build ix c w = .error e ⟨w.disk, s⟩ := by
  simp only [build, Functor.map, EStateM.map, Indexer.pass_of_unfilled h]

end Build

/-! ## Asking for an index -/

/-- What asking for an index comes to, when this stands in its slot: the answer, and the world after
it. -/
def comesTo (r : Recipe α) (ix : Indexer σ) (slot : Slot α) (c : Corpus) (now : Nat) (w : World σ) :
    Except ServiceError α × World σ :=
  match slot.fresh? now with
  | some value => (.ok value, w)
  | none =>
    match r.build ix c w with
    | .ok value w' => (.ok value, w')
    | .error e w' => (.error (.indexing e), w')

/-- The calls that are made for it. -/
def calls (r : Recipe α) (ix : Indexer σ) (slot : Slot α) (c : Corpus) (now : Nat) (w : World σ) :
    List (Call Embedding) :=
  match slot.fresh? now with
  | some _ => []
  | none => ix.batching.calls ix.provider ((ix.store.load r.kind w.disk).asks (r.items c)) w.memory

variable {r : Recipe α} {ix : Indexer σ} {slot : Slot α} {c : Corpus} {now : Nat} {w : World σ}

/-- A provider in the place of the indexer's own writes down these calls, and that changes nothing.
-/
theorem comesTo_recorded :
    r.comesTo (ix.embeddingWith ix.batching ix.provider.recorded) slot c now
        ⟨w.disk, w.memory, []⟩ =
      ((r.comesTo ix slot c now w).1, ⟨(r.comesTo ix slot c now w).2.disk,
        (r.comesTo ix slot c now w).2.memory, r.calls ix slot c now w⟩) := by
  cases hslot : slot.fresh? now with
  | some value => simp only [comesTo, calls, hslot]
  | none =>
    have hrecorded :
        r.fill (ix.embeddingWith ix.batching ix.provider.recorded) c ⟨w.disk, w.memory, []⟩ =
          ((r.fill ix c w).1, (r.fill ix c w).2, _) :=
      Cache.fill_recorded ix.batching ix.provider (r.items c) _ w.memory
    simp only [comesTo, calls, hslot]
    rcases hfill : r.fill ix c w with ⟨e | filled, s⟩
    · rw [hfill] at hrecorded
      rw [build_of_unfilled hfill, build_of_unfilled hrecorded]
      rfl
    · rw [hfill] at hrecorded
      rw [build_of_fill hfill, build_of_fill hrecorded]
      rfl

/-- So they can be read off its record. -/
theorem calls_comesTo_recorded :
    (r.comesTo (ix.embeddingWith ix.batching ix.provider.recorded) slot c now
      ⟨w.disk, w.memory, []⟩).2.memory.2 = r.calls ix slot c now w := by
  rw [comesTo_recorded]

/-- **A call that fails** is the end of it, and the disk is left as it was. -/
theorem comesTo_of_fails {call : Call Embedding} {e : EmbedError}
    (hcall : call ∈ r.calls ix slot c now w) (hfails : call.Fails e) : ∃ e' s, call.Fails e' ∧
      r.comesTo ix slot c now w = (.error (.indexing e'), ⟨w.disk, s⟩) := by
  cases hslot : slot.fresh? now with
  | some value =>
    simp only [calls, hslot] at hcall
    cases hcall
  | none =>
    simp only [calls, hslot] at hcall
    obtain ⟨e', hfails', herror⟩ := Cache.fill_of_fails hcall hfails
    have hfill : r.fill ix c w = (.error e', (r.fill ix c w).2) := Prod.ext herror rfl
    refine ⟨e', (r.fill ix c w).2, hfails', ?_⟩
    simp only [comesTo, hslot, build_of_unfilled hfill]

/-- When no call fails there is an index. -/
theorem comesTo_of_passes (h : ∀ call ∈ r.calls ix slot c now w, call.Passes) :
    ∃ value w', r.comesTo ix slot c now w = (.ok value, w') := by
  cases hslot : slot.fresh? now with
  | some value => exact ⟨value, w, by simp only [comesTo, hslot]⟩
  | none =>
    simp only [calls, hslot] at h
    obtain ⟨filled, hfilled⟩ := Cache.fill_of_passes h
    have hfill : r.fill ix c w = (.ok filled, (r.fill ix c w).2) := Prod.ext hfilled rfl
    simp only [comesTo, hslot, build_of_fill hfill]
    exact ⟨_, _, rfl⟩

end Recipe

/-! ## Slots as time passes -/

namespace Slot

variable {slot : Slot α} {now later : Nat}

/-- What is not fresh does not become fresh. -/
theorem fresh?_of_le (hstale : slot.fresh? now = none) (hle : now ≤ later) :
    slot.fresh? later = none := by
  rw [Option.eq_none_iff_forall_not_mem] at hstale ⊢
  intro value hvalue
  obtain ⟨madeAt, hkept, hage⟩ := fresh?_eq_some_iff.mp hvalue
  exact hstale value (fresh?_eq_some_iff.mpr ⟨madeAt, hkept, by omega⟩)

/-- Only what was kept is given. -/
theorem eq_of_fresh?_keep {value value' : α} {madeAt : Nat}
    (h : (slot.keep value madeAt).fresh? now = some value') : value' = value := by
  obtain ⟨_, hkept, -⟩ := fresh?_eq_some_iff.mp h
  cases hkept
  rfl

end Slot

namespace Service

variable {service : Service σ ℓ} {s s₁ : State σ ℓ}

/-! ## What an answer comes to -/

/-- What an answer comes to: the answer, and the world after it. -/
def outcome (answer : Answer σ ℓ α) (s : State σ ℓ) : Except ServiceError α × World σ :=
  match answer s with
  | .ok value s' => (.ok value, s'.world)
  | .error e s' => (.error e, s'.world)

/-- The corpus that is given now. -/
def corpusNow (service : Service σ ℓ) (s : State σ ℓ) : Corpus :=
  (s.corpus.fresh? s.now).getD (service.indexer.collect s.world.disk)

/-- That is the corpus which is given, and only its slot changes. -/
theorem takeCorpus_eq {corpus : Corpus} (htake : service.takeCorpus s = .ok corpus s₁) :
    corpus = service.corpusNow s ∧ s₁ = { s with corpus := s₁.corpus } := by
  rw [corpusNow]
  rcases takeCorpus_cases service s with ⟨kept, hfresh, hkept⟩ | ⟨hstale, hnew⟩
  · rw [hkept] at htake
    cases htake
    exact ⟨by rw [hfresh, Option.getD_some], rfl⟩
  · rw [hnew] at htake
    cases htake
    exact ⟨by rw [hstale, Option.getD_none], rfl⟩

/-- **What asking comes to** depends on the slot, the corpus and the world. -/
theorem outcome_ask {slot : SlotIn (State σ ℓ) α} {r : Recipe α}
    (hworld : ∀ kept s, (slot.set kept s).world = s.world) (s : State σ ℓ) :
    outcome (service.ask slot (r.build service.indexer)) s =
      r.comesTo service.indexer (slot.get s) (service.corpusNow s) (slot.now s) s.world := by
  rw [outcome, Recipe.comesTo]
  rcases ask_cases service slot (r.build service.indexer) s with
    ⟨value, hfresh, hask⟩ | ⟨hstale, corpus, s₁, htake, hbuild⟩
  · simp only [hask, hfresh]
  · obtain ⟨rfl, hs₁⟩ := takeCorpus_eq htake
    have hsame : s₁.world = s.world := by rw [hs₁]
    rw [hsame] at hbuild
    rcases hbuild with ⟨value, world, hbuild, hask⟩ | ⟨e, world, hbuild, hask⟩
    · simp only [hask, hstale, hbuild, hworld]
    · simp only [hask, hstale, hbuild]

theorem outcome_fileIndex (service : Service σ ℓ) (s : State σ ℓ) : outcome service.fileIndex s =
    Recipe.files.comesTo service.indexer s.files (service.corpusNow s) s.now s.world := by
  rw [fileIndex_eq_ask, ← Recipe.build_files]
  exact outcome_ask (fun _ _ => rfl) s

theorem outcome_identifierIndex (service : Service σ ℓ) (s : State σ ℓ) :
    outcome service.identifierIndex s =
      Recipe.identifiers.comesTo service.indexer s.identifiers (service.corpusNow s) s.now
        s.world := by
  rw [identifierIndex_eq_ask, ← Recipe.build_identifiers]
  exact outcome_ask (fun _ _ => rfl) s

/-- Where asking comes to an error, only the world and the slot of the corpus have changed. -/
theorem ask_of_outcome {slot : SlotIn (State σ ℓ) α} {build : Corpus → Work σ EmbedError α}
    {e : ServiceError} {world : World σ}
    (h : outcome (service.ask slot build) s = (.error e, world)) :
    ∃ corpus s₁, service.takeCorpus s = .ok corpus s₁ ∧
      service.ask slot build s = .error e { s₁ with world := world } := by
  rw [outcome] at h
  rcases ask_cases service slot build s with ⟨value, -, hask⟩ | ⟨-, corpus, s₁, htake, hbuild⟩
  · rw [hask] at h
    cases h
  · rcases hbuild with ⟨value, world', -, hask⟩ | ⟨e', world', -, hask⟩
    · rw [hask] at h
      cases h
    · rw [hask] at h
      cases h
      exact ⟨corpus, s₁, htake, hask⟩

/-! ## The calls for an index -/

/-- The service with another provider. -/
def embeddingWith (service : Service σ ℓ) (b : Batching) (provider : Provider τ Embedding) :
    Service τ ℓ where
  settings := service.settings
  indexer := service.indexer.embeddingWith b provider
  labeler := service.labeler

/-- The service with a provider that writes down its calls. -/
def recorded (service : Service σ ℓ) : Service (σ × List (Call Embedding)) ℓ :=
  service.embeddingWith service.indexer.batching service.indexer.provider.recorded

/-- The state at another time, in another world. The slots are as they were. -/
def State.later (s : State σ ℓ) (w : World τ) (now : Nat) : State τ ℓ :=
  ⟨w, s.labels, now, s.corpus, s.files, s.identifiers⟩

/-- The state before any call is written down. -/
def State.recording (s : State σ ℓ) : State (σ × List (Call Embedding)) ℓ :=
  s.later ⟨s.world.disk, s.world.memory, []⟩ s.now

/-- The calls that are made when the index of files is asked for. -/
def fileCalls (service : Service σ ℓ) (s : State σ ℓ) : List (Call Embedding) :=
  (outcome service.recorded.fileIndex s.recording).2.memory.2

/-- The calls that are made when the index of identifiers is asked for. -/
def identifierCalls (service : Service σ ℓ) (s : State σ ℓ) : List (Call Embedding) :=
  (outcome service.recorded.identifierIndex s.recording).2.memory.2

theorem fileCalls_eq (service : Service σ ℓ) (s : State σ ℓ) : service.fileCalls s =
    Recipe.files.calls service.indexer s.files (service.corpusNow s) s.now s.world := by
  rw [fileCalls, outcome_fileIndex]
  exact Recipe.calls_comesTo_recorded

theorem identifierCalls_eq (service : Service σ ℓ) (s : State σ ℓ) : service.identifierCalls s =
    Recipe.identifiers.calls service.indexer s.identifiers (service.corpusNow s) s.now s.world := by
  rw [identifierCalls, outcome_identifierIndex]
  exact Recipe.calls_comesTo_recorded

/-! ## What can be seen of a failure -/

/-- Two states answer alike: the same comes of both, and an index if no call fails. -/
structure Alike (answer : Answer σ ℓ α) (called : State σ ℓ → List (Call Embedding))
    (s s' : State σ ℓ) : Prop where
  /-- the same comes of both -/
  same : outcome answer s' = outcome answer s
  /-- after the same calls -/
  calls : called s' = called s
  /-- if none of them fails there is an index -/
  given : (∀ call ∈ called s, call.Passes) → ∃ value world, outcome answer s = (.ok value, world)

/-- Nobody can tell that `s` has become `s'`: the disk and the indexes are what they were, and
whoever asks later gets the same answer from both, as long as the same is collected from the tree.
-/
structure Unseen (service : Service σ ℓ) (s s' : State σ ℓ) : Prop where
  /-- the disk is as it was -/
  disk : s'.world.disk = s.world.disk
  /-- so is the slot of the index of files, with what stands in it -/
  files : s'.files = s.files
  /-- and the slot of the index of identifiers -/
  identifiers : s'.identifiers = s.identifiers
  /-- the index of files is the same later, whoever makes vectors then -/
  filesLater :
    ∀ {τ : Type} (b : Batching) (provider : Provider τ Embedding) (w : World τ) (now : Nat),
    s.now ≤ now → service.indexer.collect w.disk = service.indexer.collect s.world.disk →
    Alike (service.embeddingWith b provider).fileIndex (service.embeddingWith b provider).fileCalls
      (s.later w now) (s'.later w now)
  /-- so is the index of identifiers -/
  identifiersLater : ∀ {τ : Type} (b : Batching) (provider : Provider τ Embedding) (w : World τ)
    (now : Nat), s.now ≤ now →
    service.indexer.collect w.disk = service.indexer.collect s.world.disk →
    Alike (service.embeddingWith b provider).identifierIndex
      (service.embeddingWith b provider).identifierCalls (s.later w now) (s'.later w now)

/-- A corpus that was taken before is the one that would be collected later. -/
theorem corpusNow_later {corpus : Corpus} (htake : service.takeCorpus s = .ok corpus s₁)
    (world : World σ) (b : Batching) (provider : Provider τ Embedding) {w : World τ} {now : Nat}
    (hnow : s.now ≤ now)
    (hsame : service.indexer.collect w.disk = service.indexer.collect s.world.disk) :
    (service.embeddingWith b provider).corpusNow (State.later { s₁ with world := world } w now) =
      (service.embeddingWith b provider).corpusNow (s.later w now) := by
  rcases takeCorpus_cases service s with ⟨kept, -, hkept⟩ | ⟨hstale, hnew⟩
  · rw [hkept] at htake
    cases htake
    rfl
  · rw [hnew] at htake
    cases htake
    have hcollected : (service.embeddingWith b provider).indexer.collect w.disk =
      service.indexer.collect s.world.disk := hsame
    simp only [corpusNow, State.later, hcollected, Slot.fresh?_of_le hstale hnow, Option.getD_none]
    cases hlater : (s.corpus.keep (service.indexer.collect s.world.disk) s.now).fresh? now with
    | none => rfl
    | some value => exact Slot.eq_of_fresh?_keep hlater

/-- States that differ in what an index is not made of answer alike. -/
theorem alike_of_comesTo {answer : Answer σ ℓ α} {called : State σ ℓ → List (Call Embedding)}
    {r : Recipe α} {get : State σ ℓ → Slot α}
    (houtcome : ∀ s, outcome answer s =
      r.comesTo service.indexer (get s) (service.corpusNow s) s.now s.world)
    (hcalled : ∀ s, called s = r.calls service.indexer (get s) (service.corpusNow s) s.now s.world)
    {s s' : State σ ℓ} (hslot : get s' = get s)
    (hcorpus : service.corpusNow s' = service.corpusNow s)
    (hnow : s'.now = s.now) (hworld : s'.world = s.world) : Alike answer called s s' where
  same := by rw [houtcome, houtcome, hslot, hcorpus, hnow, hworld]
  calls := by rw [hcalled, hcalled, hslot, hcorpus, hnow, hworld]
  given hpasses := by
    rw [hcalled] at hpasses
    rw [houtcome]
    exact Recipe.comesTo_of_passes hpasses

/-- **Taking the corpus is not seen**, nor is anything that leaves the disk alone. -/
theorem unseen_of_takeCorpus {corpus : Corpus} (htake : service.takeCorpus s = .ok corpus s₁)
    {world : World σ} (hdisk : world.disk = s.world.disk) :
    service.Unseen s { s₁ with world := world } := by
  obtain ⟨-, hs₁⟩ := takeCorpus_eq htake
  have hfiles : s₁.files = s.files := by rw [hs₁]
  have hidentifiers : s₁.identifiers = s.identifiers := by rw [hs₁]
  refine ⟨hdisk, hfiles, hidentifiers, fun b provider w now hnow hsame => ?_,
    fun b provider w now hnow hsame => ?_⟩
  · exact alike_of_comesTo (outcome_fileIndex _) (fileCalls_eq _) hfiles
      (corpusNow_later htake world b provider hnow hsame) rfl rfl
  · exact alike_of_comesTo (outcome_identifierIndex _) (identifierCalls_eq _) hidentifiers
      (corpusNow_later htake world b provider hnow hsame) rfl rfl

/-- Asking for an index fails, unseen, when a call for it is failed. -/
theorem ask_of_failed {slot : SlotIn (State σ ℓ) α} {r : Recipe α}
    (hworld : ∀ kept s, (slot.set kept s).world = s.world) {call : Call Embedding} {detail : String}
    (hcall : call ∈ r.calls service.indexer (slot.get s) (service.corpusNow s) (slot.now s) s.world)
    (hanswer : call.answer = .error (.provider detail)) :
    ∃ s', service.ask slot (r.build service.indexer) s = .error (.indexing (.provider detail)) s' ∧
      service.Unseen s s' := by
  obtain ⟨asked, _⟩ := call
  cases hanswer
  obtain ⟨e, memory, hfails, hcomes⟩ := Recipe.comesTo_of_fails hcall (.failed asked detail)
  cases hfails
  rw [← outcome_ask hworld] at hcomes
  obtain ⟨corpus, s₁, htake, hask⟩ := ask_of_outcome hcomes
  exact ⟨_, hask, unseen_of_takeCorpus htake rfl⟩

/-- **A build that fails is not seen.** When the provider fails one of the calls that are made for
an index, there is no index, the error is that of the call, and nobody can tell afterwards. -/
theorem unseen_of_failed (service : Service σ ℓ) (s : State σ ℓ) :
    (∀ call ∈ service.fileCalls s, ∀ detail, call.answer = .error (.provider detail) →
      ∃ s', service.fileIndex s = .error (.indexing (.provider detail)) s' ∧ service.Unseen s s') ∧
    ∀ call ∈ service.identifierCalls s, ∀ detail, call.answer = .error (.provider detail) →
      ∃ s', service.identifierIndex s = .error (.indexing (.provider detail)) s' ∧
        service.Unseen s s' := by
  constructor
  · intro call hcall detail hanswer
    rw [fileCalls_eq] at hcall
    rw [fileIndex_eq_ask, ← Recipe.build_files]
    exact ask_of_failed (fun _ _ => rfl) hcall hanswer
  · intro call hcall detail hanswer
    rw [identifierCalls_eq] at hcall
    rw [identifierIndex_eq_ask, ← Recipe.build_identifiers]
    exact ask_of_failed (fun _ _ => rfl) hcall hanswer

end Service

/-! ## Two notes

A provider answers for the first note and fails for the second. Then another provider answers for
both. -/

/-- A service that sends one text at a time, to a provider of prepared answers. -/
def scriptedService : Service (List (Except EmbedError (List Embedding))) Unit :=
  briefService.embeddingWith briefService.indexer.batching .scripted

namespace Service

/-- The corpus is fresh, and an index of files has expired. -/
def noted (memory : σ) : State σ Unit where
  world := ⟨cachesOnly, memory⟩
  labels := ()
  now := 9
  corpus := ⟨"/repo", 5, some ⟨twoNotes, 7⟩⟩
  files := ⟨"/repo", 5, some ⟨default, 0⟩⟩
  identifiers := ⟨"/repo", 5, none⟩

/-- Both notes are sent. -/
theorem fileCalls_noted (b : Batching) (provider : Provider τ Embedding) (memory : τ) :
    (briefService.embeddingWith b provider).fileCalls (noted memory) =
      b.calls provider ["notes.md\nnote", "plain.md\nplain"] memory := by
  have hcorpus : (briefService.embeddingWith b provider).corpusNow (noted memory) = twoNotes := rfl
  have hempty := isEmpty_load_cachesOnly #[1.0] .files
  have hasks : ((constantIndexer #[1.0]).store.load .files cachesOnly).asks twoNotes.fileItems =
      ["notes.md\nnote", "plain.md\nplain"] := by
    rw [Cache.asks, Cache.missing_of_isEmpty hempty]
    decide
  rw [fileCalls_eq, hcorpus, ← hasks]
  rfl

/-- The second call fails, the expired index stays, and both notes are indexed later. -/
theorem unseen_of_failed_noted : ∃ s' index world,
    scriptedService.fileIndex (noted [.ok [#[1.0]], .error (.provider "gone")]) =
      .error (.indexing (.provider "gone")) s' ∧
    s'.files.kept = some ⟨default, 0⟩ ∧
    outcome briefService.fileIndex (s'.later ⟨cachesOnly, ()⟩ 9) = (.ok index, world) := by
  have hfailed : ⟨["plain.md\nplain"], .error (.provider "gone")⟩ ∈
      scriptedService.fileCalls (noted [.ok [#[1.0]], .error (.provider "gone")]) := by
    rw [scriptedService, fileCalls_noted]
    simp [Batching.calls, Batching.embedLenient, Batching.embedBatches, Batching.embedChunk,
      Provider.recorded, Provider.scripted, briefService, constantIndexer, givingIndexer]
  obtain ⟨s', hask, hunseen⟩ :=
    (unseen_of_failed scriptedService (noted [.ok [#[1.0]], .error (.provider "gone")])).1 _ hfailed
      "gone" rfl
  have hlater := hunseen.filesLater briefService.indexer.batching briefService.indexer.provider
    ⟨cachesOnly, ()⟩ 9 le_rfl rfl
  have hpasses : ∀ call ∈ briefService.fileCalls (noted ()), call.Passes := by
    have hcalls : briefService.fileCalls (noted ()) =
        [⟨["notes.md\nnote"], .ok [#[1.0]]⟩, ⟨["plain.md\nplain"], .ok [#[1.0]]⟩] := by
      refine (fileCalls_noted briefService.indexer.batching briefService.indexer.provider ()).trans
        ?_
      simp [Batching.calls, Batching.embedLenient, Batching.embedBatches, Batching.embedChunk,
        Provider.recorded, Provider.giving, briefService, constantIndexer, givingIndexer]
    rw [hcalls]
    intro call hcall
    rcases List.mem_cons.mp hcall with rfl | hcall
    · exact Call.passes_ok rfl
    · rw [List.mem_singleton.mp hcall]
      exact Call.passes_ok rfl
  obtain ⟨index, world, hindex⟩ := hlater.given hpasses
  refine ⟨s', index, world, hask, ?_, hlater.same.trans hindex⟩
  rw [hunseen.files]
  rfl

end Service

end CodeAtlas
