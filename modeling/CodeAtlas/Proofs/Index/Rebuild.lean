import CodeAtlas.Proofs.Cache.Finite
import CodeAtlas.Proofs.Cache.Repeat
import CodeAtlas.Proofs.Index.Corpus

/-!
# Building twice

Setup: an index was built, with an embedder that gives a text the same every time, and the cache map
that the build ended with is found again by a second build. **`Indexer.build_again`** collects what
is known of the second build: it finds every vector of the first one, sends only the texts that
never got one, and ends with the same map. When every text got its vector, whoever makes vectors is
not asked at all, which is said by putting any other embedder in its place
(`Indexer.embeddingWith`): its state stays as it was.

Between the builds the maps go through the disk. What was saved is found again exactly when its
components are all finite. Then an unchanged corpus is built anew from the caches, as far as its
texts got vectors; otherwise every text is sent again (`Indexer.Rebuilds`).
-/

namespace CodeAtlas

open CodeAtlas.Disk
open CodeAtlas.CacheStore (Owns)

variable {σ τ : Type} {ix : Indexer σ} {g : String → Option Embedding} {kind : CacheKind}
  {items : List Item} {wanted : String → Bool}

/-! ## Passes -/

namespace Indexer

/-- The indexer with another embedder. -/
def embeddingWith (ix : Indexer σ) (b : Batching) (provider : Provider τ Embedding) :
    Indexer τ where
  root := ix.root
  rules := ix.rules
  parser := ix.parser
  provider := provider
  batching := b
  store := ix.store
  documentChars := ix.documentChars
  fileBytes := ix.fileBytes

/-- What a pass fills in that finds all it gives in its cache. -/
def servedBy (m : Cache) (vectors : List (Option Embedding)) : Filled :=
  ⟨m, vectors, (vectors.filter Option.isSome).length, 0⟩

/-- Such a pass drops nothing and saves what it loaded, if that was pruned before. -/
theorem pass_of_served {w : World σ} {vectors : List (Option Embedding)} {s : σ} {m : Cache}
    (hfill : (ix.store.load kind w.disk).fill ix.batching ix.provider items w.memory =
      (.ok (servedBy (ix.store.load kind w.disk) vectors), s))
    (hkept : (ix.store.load kind w.disk).Equiv (m.prune wanted).2) :
    ∃ kept, kept.Equiv (m.prune wanted).2 ∧ ix.pass kind items wanted w =
      .ok (servedBy (ix.store.load kind w.disk) vectors, 0)
        ⟨ix.savedCache kind kept w.disk, s⟩ := by
  obtain ⟨hnone, hsame⟩ := Cache.prune_prune hkept
  refine ⟨((ix.store.load kind w.disk).prune wanted).2, hsame.trans hkept, ?_⟩
  rcases ix.pass_cases kind items wanted w with ⟨filled, s', hfill', hpass⟩ | ⟨e, s', hpass⟩
  · rw [hfill] at hfill'
    cases hfill'
    rw [hpass, servedBy, hnone]
  · simp only [pass, bind, EStateM.bind, loadCache, fillCache, hfill, saveCache, pure,
      EStateM.pure] at hpass
    cases hpass

/-- What is known of a pass over some items whose cache has what they got before: `vectors` are what
they got, and `kept` is the cache that the pass before ended with. -/
structure Rests (ix : Indexer σ) (kind : CacheKind) (items : List Item) (wanted : String → Bool)
    (vectors : List (Option Embedding)) (kept : Cache) : Prop where
  /-- the cache is settled for the items, however its entries are arranged -/
  repeats : ∀ m : Cache, m.Equiv kept → m.Repeats ix.batching ix.provider items vectors
  /-- a pass that finds the cache gives the same and ends with the same cache -/
  same : ∀ w : World σ, (ix.store.load kind w.disk).Equiv kept → ∃ kept' s, kept'.Equiv kept ∧
    ix.pass kind items wanted w =
      .ok (servedBy (ix.store.load kind w.disk) vectors, 0) ⟨ix.savedCache kind kept' w.disk, s⟩
  /-- when every item got a vector, whoever makes vectors is not asked -/
  silent : none ∉ vectors →
    ∀ {τ : Type} (b : Batching) (provider : Provider τ Embedding) (w : World τ),
    (ix.store.load kind w.disk).Equiv kept → ∃ kept', kept'.Equiv kept ∧
    (ix.embeddingWith b provider).pass kind items wanted w =
      .ok (servedBy (ix.store.load kind w.disk) vectors, 0)
        ⟨ix.savedCache kind kept' w.disk, w.memory⟩

/-- **A pass leaves a cache that the next one finds everything in.** -/
theorem rests_of_pass (hdet : ix.batching.Deterministic ix.provider g) (hkeys : Cache.Keyed items)
    (hwanted : ∀ i ∈ items, wanted i.key = true) {w w' : World σ} {filled : Filled} {pruned : Nat}
    (h : ix.pass kind items wanted w = .ok (filled, pruned) w') :
    (ix.store.load kind w.disk).fill ix.batching ix.provider items w.memory =
      (.ok filled, w'.memory) ∧
      w'.disk = ix.savedCache kind (filled.cache.prune wanted).2 w.disk ∧
      ix.Rests kind items wanted filled.vectors (filled.cache.prune wanted).2 := by
  rcases ix.pass_cases kind items wanted w with ⟨filled', s, hfill, hpass⟩ | ⟨e, s, hpass⟩
  · rw [hpass] at h
    cases h
    have hfound : ∀ m : Cache, m.Equiv (filled.cache.prune wanted).2 →
        m.found items = filled.vectors := fun m hm => by
      rw [Cache.found_congr hm, Cache.found_prune hwanted, Cache.found_of_fill hdet hkeys hfill]
    have hrepeats : ∀ m : Cache, m.Equiv (filled.cache.prune wanted).2 →
        m.Repeats ix.batching ix.provider items filled.vectors := fun m hm =>
      Cache.repeats_of_found hdet hfill (hfound m hm)
    refine ⟨hfill, rfl, hrepeats, fun w₂ hloaded => ?_, fun hall τ b provider w₂ hloaded => ?_⟩
    · obtain ⟨t, hsame⟩ := (hrepeats _ hloaded).same w₂.memory
      obtain ⟨kept', hkept', hpass'⟩ := pass_of_served hsame hloaded
      exact ⟨kept', t, hkept', hpass'⟩
    · have hsame := (hrepeats _ hloaded).fill_of_forall_some hall b provider w₂.memory
      exact @pass_of_served _ (ix.embeddingWith b provider) _ _ _ _ _ _ _ hsame hloaded
  · rw [hpass] at h
    cases h

/-! ## Builds -/

/-- A second build gives the entries of the first, all of them from the cache, and drops no key. -/
structure Served {α : Type} (entries again : List (α × Embedding)) (stats : BuildStats) : Prop where
  /-- the entries are the same -/
  same : again = entries
  /-- nothing was embedded -/
  embedded : stats.embedded = 0
  /-- all vectors were found -/
  hits : stats.cacheHits = entries.length
  /-- no key was dropped -/
  pruned : stats.pruned = 0

/-- As many things are indexed as got a vector. -/
theorem length_embeddedEntries {α : Type} {things : List α} {vectors : List (Option Embedding)}
    (h : vectors.length = things.length) :
    (embeddedEntries things vectors).length = (vectors.filter Option.isSome).length := by
  induction things generalizing vectors with
  | nil =>
    rw [List.length_eq_zero_iff.mp h]
    rfl
  | cons thing things ih =>
    cases vectors with
    | nil => cases h
    | cons v? vectors =>
      have hrest := ih (Nat.succ.inj h)
      cases v? <;> simp [embeddedEntries] at hrest ⊢ <;> exact hrest

/-- What is known of a build of an index that was built before: `first` is what was built, `vectors`
are what its items got, and `kept` is the cache that the build ended with. -/
structure Resumes {α β : Type} (ix : Indexer σ) (kind : CacheKind) (items : List Item)
    (build : {τ : Type} → Indexer τ → Work τ EmbedError β) (entries : β → List (α × Embedding))
    (stats : β → BuildStats) (first : β) (vectors : List (Option Embedding)) (kept : Cache) :
    Prop where
  /-- the cache is settled for the items, however its entries are arranged -/
  repeats : ∀ m : Cache, m.Equiv kept → m.Repeats ix.batching ix.provider items vectors
  /-- a build that finds the cache is served from it and ends with the same cache -/
  same : ∀ w : World σ, (ix.store.load kind w.disk).Equiv kept → ∃ again kept' s,
    build ix w = .ok again ⟨ix.savedCache kind kept' w.disk, s⟩ ∧
      Served (entries first) (entries again) (stats again) ∧ kept'.Equiv kept
  /-- when every item got a vector, whoever makes vectors is not asked -/
  silent : none ∉ vectors →
    ∀ {τ : Type} (b : Batching) (provider : Provider τ Embedding) (w : World τ),
    (ix.store.load kind w.disk).Equiv kept → ∃ again kept',
    build (ix.embeddingWith b provider) w = .ok again ⟨ix.savedCache kind kept' w.disk, w.memory⟩ ∧
      Served (entries first) (entries again) (stats again) ∧ kept'.Equiv kept

/-- A build that is made of a pass resumes when the pass rests. -/
theorem Rests.resumes {α β : Type} {vectors : List (Option Embedding)} {kept : Cache}
    (h : ix.Rests kind items wanted vectors kept)
    {build : {τ : Type} → Indexer τ → Work τ EmbedError β} {made : Filled × Nat → β}
    (hbuild : ∀ {τ : Type} (ix : Indexer τ), build ix = made <$> ix.pass kind items wanted)
    {things : List α} (hlength : items.length = things.length)
    {entries : β → List (α × Embedding)} {stats : β → BuildStats}
    (hentries : ∀ filled pruned, entries (made (filled, pruned)) =
      embeddedEntries things filled.vectors)
    (hstats : ∀ filled pruned, (stats (made (filled, pruned))).embedded = filled.embedded ∧
      (stats (made (filled, pruned))).cacheHits = filled.hits ∧
      (stats (made (filled, pruned))).pruned = pruned) {first : β}
    (hfirst : entries first = embeddedEntries things vectors) :
    ix.Resumes kind items build entries stats first vectors kept := by
  have hvectors : vectors.length = things.length := by
    rw [← (h.repeats kept .rfl).found, Cache.found, List.length_map, hlength]
  have hserved (m : Cache) : Served (entries first) (entries (made (servedBy m vectors, 0)))
      (stats (made (servedBy m vectors, 0))) := by
    obtain ⟨hembedded, hhits, hpruned⟩ := hstats (servedBy m vectors) 0
    refine ⟨?_, hembedded, ?_, hpruned⟩
    · rw [hentries, hfirst, servedBy]
    · rw [hhits, hfirst, length_embeddedEntries hvectors, servedBy]
  refine ⟨h.repeats, fun w hloaded => ?_, fun hall τ b provider w hloaded => ?_⟩
  · obtain ⟨kept', s, hkept', hpass⟩ := h.same w hloaded
    refine ⟨_, kept', s, ?_, hserved (ix.store.load kind w.disk), hkept'⟩
    simp only [hbuild, Functor.map, EStateM.map, hpass]
  · obtain ⟨kept', hkept', hpass⟩ := h.silent hall b provider w hloaded
    refine ⟨_, kept', ?_, hserved (ix.store.load kind w.disk), hkept'⟩
    simp only [hbuild, Functor.map, EStateM.map, hpass]

/-- A build that is made of a pass leaves a cache that the next one is served from. -/
theorem resumes_of_build (hdet : ix.batching.Deterministic ix.provider g)
    (hkeys : Cache.Keyed items) (hwanted : ∀ i ∈ items, wanted i.key = true) {α β : Type}
    {build : {τ : Type} → Indexer τ → Work τ EmbedError β} {made : Filled × Nat → β}
    (hbuild : ∀ {τ : Type} (ix : Indexer τ), build ix = made <$> ix.pass kind items wanted)
    {things : List α} (hlength : items.length = things.length)
    {entries : β → List (α × Embedding)} {stats : β → BuildStats}
    (hentries : ∀ filled pruned, entries (made (filled, pruned)) =
      embeddedEntries things filled.vectors)
    (hstats : ∀ filled pruned, (stats (made (filled, pruned))).embedded = filled.embedded ∧
      (stats (made (filled, pruned))).cacheHits = filled.hits ∧
      (stats (made (filled, pruned))).pruned = pruned) {first : β} {w w' : World σ}
    (h : build ix w = .ok first w') :
    ∃ filled, (ix.store.load kind w.disk).fill ix.batching ix.provider items w.memory =
        (.ok filled, w'.memory) ∧
      w'.disk = ix.savedCache kind (filled.cache.prune wanted).2 w.disk ∧
      entries first = embeddedEntries things filled.vectors ∧
      ix.Resumes kind items build entries stats first filled.vectors
        (filled.cache.prune wanted).2 := by
  rw [hbuild] at h
  obtain ⟨⟨filled, pruned⟩, hpass, rfl⟩ := Work.exists_of_map_eq_ok h
  obtain ⟨hfill, hdisk, hrests⟩ := rests_of_pass hdet hkeys hwanted hpass
  exact ⟨filled, hfill, hdisk, hentries filled pruned,
    hrests.resumes hbuild hlength hentries hstats (hentries filled pruned)⟩

/-- A file build leaves a cache that the next one is served from. -/
theorem buildFiles_again (hdet : ix.batching.Deterministic ix.provider g) {c : Corpus}
    (hkeys : Cache.Keyed c.fileItems) {w w' : World σ} {first : FileIndex}
    (h : ix.buildFiles c w = .ok first w') :
    ∃ filled, (ix.store.load .files w.disk).fill ix.batching ix.provider c.fileItems w.memory =
        (.ok filled, w'.memory) ∧
      w'.disk = ix.savedCache .files (filled.cache.prune c.keepsFile).2 w.disk ∧
      first.entries = embeddedEntries c.documents filled.vectors ∧
      ix.Resumes .files c.fileItems (fun ix => ix.buildFiles c) FileIndex.entries FileIndex.stats
        first filled.vectors (filled.cache.prune c.keepsFile).2 := by
  refine resumes_of_build hdet hkeys ?_ (fun ix => buildFiles_eq_map ix c) (List.length_map ..)
    (fun filled pruned => entries_fileIndexOf c filled pruned) (fun _ _ => ⟨rfl, rfl, rfl⟩) h
  intro i hi
  obtain ⟨document, hdocument, rfl⟩ := List.mem_map.mp hi
  exact keepsFile_key hdocument

/-- An identifier build leaves a cache that the next one is served from. -/
theorem buildIdentifiers_again (hdet : ix.batching.Deterministic ix.provider g) {c : Corpus}
    (hkeys : Cache.Keyed c.identifierItems) {w w' : World σ} {first : IdentifierIndex}
    (h : ix.buildIdentifiers c w = .ok first w') :
    ∃ filled, (ix.store.load .identifiers w.disk).fill ix.batching ix.provider c.identifierItems
        w.memory = (.ok filled, w'.memory) ∧
      w'.disk = ix.savedCache .identifiers (filled.cache.prune c.keepsIdentifier).2 w.disk ∧
      first.entries = embeddedEntries c.identifiers filled.vectors ∧
      ix.Resumes .identifiers c.identifierItems (fun ix => ix.buildIdentifiers c)
        IdentifierIndex.entries IdentifierIndex.stats first filled.vectors
        (filled.cache.prune c.keepsIdentifier).2 := by
  refine resumes_of_build hdet hkeys ?_ (fun ix => buildIdentifiers_eq_map ix c)
    (List.length_map ..) (fun filled pruned => entries_identifierIndexOf c filled pruned)
    (fun _ _ => ⟨rfl, rfl, rfl⟩) h
  intro i hi
  obtain ⟨identifier, hidentifier, rfl⟩ := List.mem_map.mp hi
  exact keepsIdentifier_key hidentifier

/-! ## What is sent -/

/-- The provider's state after a piece of work, whether it succeeds or fails. -/
def memoryAfter {ε α : Type} (m : Work σ ε α) (w : World σ) : σ :=
  match m w with
  | .ok _ w => w.memory
  | .error _ w => w.memory

/-- On a disk, the build sends these texts and no others: whoever makes vectors is left in the state
that these texts alone leave. -/
def Sends {β : Type} (ix : Indexer σ) (build : {τ : Type} → Indexer τ → Work τ EmbedError β)
    (d : Disk) (texts : List String) : Prop :=
  ∀ {τ : Type} (b : Batching) (provider : Provider τ Embedding) (memory : τ),
    memoryAfter (build (ix.embeddingWith b provider)) ⟨d, memory⟩ =
      (b.embedLenient provider texts memory).2

/-- A pass sends what its cache misses. -/
theorem memoryAfter_pass (ix : Indexer σ) (kind : CacheKind) (items : List Item)
    (wanted : String → Bool) (w : World σ) :
    memoryAfter (ix.pass kind items wanted) w = (ix.batching.embedLenient ix.provider
      (((ix.store.load kind w.disk).missing items).map Item.text) w.memory).2 := by
  rw [← Cache.fill_snd, memoryAfter]
  rcases hfill : (ix.store.load kind w.disk).fill ix.batching ix.provider items w.memory with
    ⟨e | filled, s⟩
  · rw [pass_of_unfilled hfill]
  · rw [pass_of_fill hfill]

/-- A build that is made of a pass sends what its cache misses. -/
theorem sends_missing {β : Type} {build : {τ : Type} → Indexer τ → Work τ EmbedError β}
    {made : Filled × Nat → β}
    (hbuild : ∀ {τ : Type} (ix : Indexer τ), build ix = made <$> ix.pass kind items wanted)
    (ix : Indexer σ) (d : Disk) :
    ix.Sends build d (((ix.store.load kind d).missing items).map Item.text) := by
  intro τ b provider memory
  have hpass := memoryAfter_pass (ix.embeddingWith b provider) kind items wanted ⟨d, memory⟩
  rw [memoryAfter] at hpass
  simp only [hbuild, memoryAfter, Functor.map, EStateM.map]
  cases h : (ix.embeddingWith b provider).pass kind items wanted ⟨d, memory⟩ <;>
    rw [h] at hpass <;> exact hpass

/-! ## Through the disk -/

/-- What is known of a build on a disk that has what a build before it left: `first` is what was
built before, from items whose texts get the vectors `g`, and `saved` is the cache that was saved.
-/
structure Rebuilds {α β : Type} (ix : Indexer σ) (g : String → Option Embedding)
    (build : {τ : Type} → Indexer τ → Work τ EmbedError β) (entries : β → List (α × Embedding))
    (stats : β → BuildStats) (items : List Item) (first : β) (saved : Cache) (d : Disk) : Prop where
  /-- when what was saved is finite, only the texts are sent that have no vector in it -/
  sent : saved.Finite → ix.Sends build d ((saved.missing items).map Item.text)
  /-- and when all texts get vectors, the build is served, whoever makes vectors, and nobody is
  asked -/
  served : saved.Finite → (∀ i ∈ items, (g i.text).isSome) →
    ∀ {τ : Type} (b : Batching) (provider : Provider τ Embedding) (memory : τ), ∃ again d',
      build (ix.embeddingWith b provider) ⟨d, memory⟩ = .ok again ⟨d', memory⟩ ∧
        Served (entries first) (entries again) (stats again)
  /-- when it is not finite, all texts are sent again -/
  lost : ¬saved.Finite → ix.Sends build d (items.map Item.text)

/-- When all texts get vectors, every item got one. -/
theorem none_notMem_of_fill (hdet : ix.batching.Deterministic ix.provider g)
    (hfits : ∀ i ∈ items, (g i.text).isSome) {m : Cache} {s s' : σ} {filled : Filled}
    (h : m.fill ix.batching ix.provider items s = (.ok filled, s')) : none ∉ filled.vectors := by
  rw [Cache.filled_of_fill hdet h, Cache.filled, Cache.closeGaps_answersOf, List.mem_map]
  rintro ⟨i, hi, hnone⟩
  rw [Cache.recalled, Option.or_eq_none_iff] at hnone
  have hsome := hfits i hi
  rw [hnone.2] at hsome
  cases hsome

/-- A build that resumes goes through the disk, as far as the cache can be read again. -/
theorem Resumes.rebuilds {α β : Type} {build : {τ : Type} → Indexer τ → Work τ EmbedError β}
    {entries : β → List (α × Embedding)} {stats : β → BuildStats} {first : β}
    {vectors : List (Option Embedding)} {saved : Cache}
    (h : ix.Resumes kind items build entries stats first vectors saved)
    {made : Filled × Nat → β}
    (hbuild : ∀ {τ : Type} (ix : Indexer τ), build ix = made <$> ix.pass kind items wanted)
    (hall : (∀ i ∈ items, (g i.text).isSome) → none ∉ vectors) {loaded : Cache}
    (hreloads : saved.Reloads loaded) {d : Disk} (hloaded : (ix.store.load kind d).Equiv loaded) :
    ix.Rebuilds g build entries stats items first saved d where
  sent hfinite := by
    rw [← Cache.missing_congr (hloaded.trans (hreloads.kept hfinite))]
    exact sends_missing hbuild ix d
  served hfinite hfits τ b provider memory := by
    obtain ⟨again, kept, hagain, hserved, -⟩ :=
      h.silent (hall hfits) b provider ⟨d, memory⟩ (hloaded.trans (hreloads.kept hfinite))
    exact ⟨again, _, hagain, hserved⟩
  lost hinfinite := by
    have hmissing : (ix.store.load kind d).missing items = items := by
      rw [Cache.missing_congr hloaded, hreloads.lost hinfinite,
        Cache.missing_of_isEmpty Std.TreeMap.isEmpty_emptyc]
    have hsends : ix.Sends build d (((ix.store.load kind d).missing items).map Item.text) :=
      sends_missing hbuild ix d
    rwa [hmissing] at hsends

/-- **What was done once is done again as far as it was lost.** The embedder gives a text the same
every time.

Filling any cache with items of different keys leaves a cache that is settled for them. So do the
passes of both builds, which drop keys afterwards: a build that finds the cache of the build before
is served from it, whoever makes vectors.

Between the builds the caches go through the disk. The first builds save them, and what is loaded
then is found by builds of the same corpus on any disk with these caches. Where numbers are read
back, such a build sends nothing but the texts that never fitted, and so nothing at all when all
texts fit, exactly when the vectors that were saved are finite. Otherwise it sends every text again.
-/
theorem build_again (hdet : ix.batching.Deterministic ix.provider g) :
    (∀ (m : Cache) (items : List Item) (s s' : σ) (filled : Filled), (items.map Item.key).Nodup →
      m.fill ix.batching ix.provider items s = (.ok filled, s') →
      filled.cache.Repeats ix.batching ix.provider items filled.vectors) ∧
    (∀ (c : Corpus) (w w' : World σ) (first : FileIndex), (c.fileItems.map Item.key).Nodup →
      ix.buildFiles c w = .ok first w' →
      ∃ filled, (ix.store.load .files w.disk).fill ix.batching ix.provider c.fileItems w.memory =
          (.ok filled, w'.memory) ∧
        w'.disk = ix.savedCache .files (filled.cache.prune c.keepsFile).2 w.disk ∧
        first.entries = embeddedEntries c.documents filled.vectors ∧
        ix.Resumes .files c.fileItems (fun ix => ix.buildFiles c) FileIndex.entries FileIndex.stats
          first filled.vectors (filled.cache.prune c.keepsFile).2) ∧
    (∀ (c : Corpus) (w w' : World σ) (first : IdentifierIndex),
      (c.identifierItems.map Item.key).Nodup → ix.buildIdentifiers c w = .ok first w' →
      ∃ filled, (ix.store.load .identifiers w.disk).fill ix.batching ix.provider c.identifierItems
          w.memory = (.ok filled, w'.memory) ∧
        w'.disk = ix.savedCache .identifiers (filled.cache.prune c.keepsIdentifier).2 w.disk ∧
        first.entries = embeddedEntries c.identifiers filled.vectors ∧
        ix.Resumes .identifiers c.identifierItems (fun ix => ix.buildIdentifiers c)
          IdentifierIndex.entries IdentifierIndex.stats first filled.vectors
          (filled.cache.prune c.keepsIdentifier).2) ∧
    ∀ (c : Corpus) (home : Place) (w w₁ w₂ : World σ) (files : FileIndex)
      (identifiers : IdentifierIndex) (d : Disk), (∃ opened, ix.store.Opens w.disk opened home) →
      (c.fileItems.map Item.key).Nodup → (c.identifierItems.map Item.key).Nodup →
      ix.buildFiles c w = .ok files w₁ → ix.buildIdentifiers c w₁ = .ok identifiers w₂ →
      (∀ kind, (ix.store.load kind d).Equiv (ix.store.load kind w₂.disk)) →
      ∃ filled filled', (ix.store.load .files w.disk).fill ix.batching ix.provider c.fileItems
          w.memory = (.ok filled, w₁.memory) ∧
        (ix.store.load .identifiers w₁.disk).fill ix.batching ix.provider c.identifierItems
          w₁.memory = (.ok filled', w₂.memory) ∧
        ((filled.cache.prune c.keepsFile).2.Legible →
          ix.Rebuilds g (fun ix => ix.buildFiles c) FileIndex.entries FileIndex.stats c.fileItems
            files (filled.cache.prune c.keepsFile).2 d) ∧
        ((filled'.cache.prune c.keepsIdentifier).2.Legible →
          ix.Rebuilds g (fun ix => ix.buildIdentifiers c) IdentifierIndex.entries
            IdentifierIndex.stats c.identifierItems identifiers
            (filled'.cache.prune c.keepsIdentifier).2 d) := by
  refine ⟨fun m items s s' filled hkeys hfill => ?_, fun c w w' first hkeys h => ?_,
    fun c w w' first hkeys h => ?_, ?_⟩
  · exact Cache.repeats_of_found hdet hfill
      (Cache.found_of_fill hdet (Cache.keyed_of_nodup hkeys) hfill)
  · exact buildFiles_again hdet (Cache.keyed_of_nodup hkeys) h
  · exact buildIdentifiers_again hdet (Cache.keyed_of_nodup hkeys) h
  · intro c home w w₁ w₂ files identifiers d hopens hkeys hkeys' hfiles hidentifiers hloaded
    obtain ⟨opened, hopens⟩ := hopens
    obtain ⟨filled, hfill, hdisk, -, hresumes⟩ :=
      buildFiles_again hdet (Cache.keyed_of_nodup hkeys) hfiles
    obtain ⟨filled', hfill', hdisk', -, hresumes'⟩ :=
      buildIdentifiers_again hdet (Cache.keyed_of_nodup hkeys') hidentifiers
    obtain ⟨hfirst, hsecond, -, hafter⟩ := written_savedCaches hopens hdisk hdisk'
    refine ⟨filled, filled', hfill, hfill', fun hlegible => ?_, fun hlegible => ?_⟩
    -- the build of identifiers leaves the cache of files as it was
    · have hthere := hloaded .files
      rw [hafter, hfirst.loaded] at hthere
      exact hresumes.rebuilds (fun ix => buildFiles_eq_map ix c)
        (fun hfits => none_notMem_of_fill hdet hfits hfill) hlegible.reloads hthere
    · have hthere := hloaded .identifiers
      rw [hsecond.loaded] at hthere
      exact hresumes'.rebuilds (fun ix => buildIdentifiers_eq_map ix c)
        (fun hfits => none_notMem_of_fill hdet hfits hfill') hlegible.reloads hthere

end Indexer

/-! ## Two notes

Two notes are indexed, and then again by an indexer that writes down what it is asked. -/

/-- A corpus of two text files. -/
def twoNotes : Corpus :=
  { documents := [⟨"notes.md", "", [], [], "note"⟩, ⟨"plain.md", "", [], [], "plain"⟩]
    identifiers := []
    sources := ∅
    scanned := 2
    skipped := 0 }

/-- The vectors of their texts: the plain one gets its own. -/
def vectorOf (v : Embedding) (text : String) : Embedding :=
  if text = "plain.md\nplain" then v else #[1.0]

theorem fileItems_twoNotes :
    twoNotes.fileItems = [⟨"notes.md", "notes.md\nnote"⟩, ⟨"plain.md", "plain.md\nplain"⟩] := by
  decide

/-- A provider that writes down what it is asked. -/
def Provider.recording : Provider (List String) Embedding where
  name := "recording"
  embed texts sent := (.ok (texts.map fun _ => #[1.0]), sent ++ texts)

/-- The batches of the recording indexer. -/
def recordingBatching : Batching :=
  ⟨2, ⟨0.5, 1⟩, Nat.two_pos⟩

/-- The indexer of the notes with that provider. -/
def recordingIndexer (v : Embedding) : Indexer (List String) :=
  (givingIndexer (vectorOf v)).embeddingWith recordingBatching .recording

theorem vectorOf_plain (v : Embedding) : vectorOf v "plain.md\nplain" = v :=
  if_pos rfl

/-- What a first build fills in and saves has these vectors. -/
theorem honest_twoNotes {v : Embedding} {wanted : String → Bool} {items : List Item} {m : Cache}
    (hm : m.isEmpty = true) {s' : Unit} {filled : Filled}
    (h : m.fill (givingIndexer (vectorOf v)).batching (givingIndexer (vectorOf v)).provider items ()
      = (.ok filled, s')) :
    (filled.cache.prune wanted).2.Honest fun _ v' => v' = v ∨ v' = #[1.0] := by
  have hg := Provider.gives_giving (vectorOf v) (givingIndexer (vectorOf v)).batching
  rw [Cache.filled_of_fill hg.deterministic h]
  refine ((Cache.Honest.of_isEmpty hm).filled fun i _ v' hv' => ?_).prune wanted
  rw [← Option.some.inj hv', vectorOf]
  split_ifs
  · exact .inl rfl
  · exact .inr rfl

/-- The vector of the plain note is among them. -/
theorem getElem?_twoNotes {v : Embedding} {m : Cache} (hm : m.isEmpty = true) {s' : Unit}
    {filled : Filled} (h : m.fill (givingIndexer (vectorOf v)).batching
      (givingIndexer (vectorOf v)).provider twoNotes.fileItems () = (.ok filled, s')) :
    (filled.cache.prune twoNotes.keepsFile).2["plain.md"]? =
      some ⟨Fingerprint.contentHash "plain.md\nplain", v⟩ := by
  have hg := Provider.gives_giving (vectorOf v) (givingIndexer (vectorOf v)).batching
  have hplain : (⟨"plain.md", "plain.md\nplain"⟩ : Item) ∈ twoNotes.fileItems := by
    rw [fileItems_twoNotes]
    exact .tail _ (.head _)
  have hfound := Cache.vector?_learnAll (m := m) (g := fun text => some (vectorOf v text)) hplain
    fun j hj hkey => Cache.keyed_of_nodup (by decide) j hj _ hplain hkey
  rw [Indexer.recalled_of_isEmpty hm, vectorOf_plain] at hfound
  rw [Cache.getElem?_prune, if_pos (by decide), Cache.filled_of_fill hg.deterministic h]
  exact Cache.vector?_eq_some.mp hfound

/-- When both vectors are finite, nothing is sent again. When one of them is infinite, both texts
are. -/
theorem Indexer.build_again_twoNotes :
    (∃ files w₁ identifiers w₂ again d',
      (givingIndexer (vectorOf #[2.0])).buildFiles twoNotes ⟨cachesOnly, ()⟩ = .ok files w₁ ∧
        (givingIndexer (vectorOf #[2.0])).buildIdentifiers twoNotes w₁ = .ok identifiers w₂ ∧
        (recordingIndexer #[2.0]).buildFiles twoNotes ⟨w₂.disk, []⟩ = .ok again ⟨d', []⟩ ∧
        again.entries.map Prod.snd = [#[1.0], #[2.0]]) ∧
    ∃ files w₁ identifiers w₂,
      (givingIndexer (vectorOf hugeVector)).buildFiles twoNotes ⟨cachesOnly, ()⟩ = .ok files w₁ ∧
        (givingIndexer (vectorOf hugeVector)).buildIdentifiers twoNotes w₁ = .ok identifiers w₂ ∧
        memoryAfter ((recordingIndexer hugeVector).buildFiles twoNotes) ⟨w₂.disk, []⟩ =
          ["notes.md\nnote", "plain.md\nplain"] := by
  have hempty (v : Embedding) :
      ((givingIndexer (vectorOf v)).store.load .files cachesOnly).isEmpty = true :=
    isEmpty_load_cachesOnly v .files
  have hbuilds {v : Embedding} (hv : v.Legible) : ∃ files w₁ identifiers w₂ filled s,
      (givingIndexer (vectorOf v)).buildFiles twoNotes ⟨cachesOnly, ()⟩ = .ok files w₁ ∧
        (givingIndexer (vectorOf v)).buildIdentifiers twoNotes w₁ = .ok identifiers w₂ ∧
        files.entries = entriesOf (fun d => some (vectorOf v d.item.text)) twoNotes.documents ∧
        ((givingIndexer (vectorOf v)).store.load .files cachesOnly).fill
          (givingIndexer (vectorOf v)).batching (givingIndexer (vectorOf v)).provider
          twoNotes.fileItems () = (.ok filled, s) ∧
        (givingIndexer (vectorOf v)).Rebuilds (fun text => some (vectorOf v text))
          (fun ix => ix.buildFiles twoNotes) FileIndex.entries FileIndex.stats twoNotes.fileItems
          files (filled.cache.prune twoNotes.keepsFile).2 w₂.disk := by
    have hg := Provider.gives_giving (vectorOf v) (givingIndexer (vectorOf v)).batching
    obtain ⟨files, s, hfiles, hentries, -⟩ := buildFiles_eq hg twoNotes ⟨cachesOnly, ()⟩
    obtain ⟨identifiers, s', hidentifiers, -⟩ := buildIdentifiers_eq hg twoNotes
      ⟨(givingIndexer (vectorOf v)).savedCache .files _ cachesOnly, s⟩
    obtain ⟨filled, filled', hfill, -, hrebuilds, -⟩ := (build_again hg.deterministic).2.2.2
      twoNotes ["caches"] ⟨cachesOnly, ()⟩ _ _ files identifiers _
      ⟨_, (settled_cachesOnly v).opens⟩ (by decide) (by decide) hfiles hidentifiers fun _ => .rfl
    simp only [recalled_of_isEmpty (hempty v)] at hentries
    refine ⟨files, _, identifiers, _, filled, _, hfiles, hidentifiers, hentries, hfill,
      hrebuilds ((honest_twoNotes (hempty v) hfill).legible fun _ v' hv' => ?_)⟩
    rcases hv' with rfl | rfl
    · exact hv
    · exact Embedding.storable_one.legible
  constructor
  · obtain ⟨files, w₁, identifiers, w₂, filled, s, hfiles, hidentifiers, hentries, hfill,
      hrebuilds⟩ := hbuilds Embedding.storable_two.legible
    have hfinite : (filled.cache.prune twoNotes.keepsFile).2.Finite :=
      (honest_twoNotes (hempty _) hfill).finite fun _ v' hv' x hx => by
        rcases hv' with rfl | rfl
        · exact List.mem_singleton.mp hx ▸ by decide +kernel
        · exact List.mem_singleton.mp hx ▸ by decide +kernel
    obtain ⟨again, d', hagain, hserved⟩ := hrebuilds.served hfinite (fun _ _ => rfl)
      recordingBatching .recording []
    refine ⟨files, w₁, identifiers, w₂, again, d', hfiles, hidentifiers, hagain, ?_⟩
    rw [hserved.same, hentries]
    decide +kernel
  · obtain ⟨files, w₁, identifiers, w₂, filled, s, hfiles, hidentifiers, -, hfill, hrebuilds⟩ :=
      hbuilds legible_hugeVector
    have hinfinite : ¬(filled.cache.prune twoNotes.keepsFile).2.Finite := fun hfinite =>
      not_finite_hugeVector (hfinite _ _ (getElem?_twoNotes (hempty _) hfill))
    refine ⟨files, w₁, identifiers, w₂, hfiles, hidentifiers, ?_⟩
    refine (hrebuilds.lost hinfinite recordingBatching .recording []).trans ?_
    rw [fileItems_twoNotes]
    simp [Batching.embedLenient, Batching.embedBatches, Batching.embedChunk, Provider.recording,
      recordingBatching]

end CodeAtlas
