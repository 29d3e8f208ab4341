import CodeAtlas.Index.Refresh
import CodeAtlas.Proofs.Cache.Fill
import CodeAtlas.Proofs.Cache.Store

/-!
# What a build does

Setup: a build of an index and a refresh both read a cache, fill it, and save it; a build drops keys
after filling and a refresh before. `Indexer.pass_cases` and `Indexer.refreshCache_cases` say how
one such pass can end, and everything else about builds and refreshes is said in terms of them.

* `entries_gather`, `skipped_gather` — what is gathered are the things that have a vector, each with
  its own, and the others are counted.
* `Indexer.buildFiles_eq_map`, `Indexer.buildIdentifiers_eq_map` — a build is a pass and an index
  made of it.
* **`Indexer.buildFiles_eq`**, **`Indexer.buildIdentifiers_eq`** — with an embedder that always
  gives the same, a build succeeds, and each thing is indexed with what the cache has of it or else
  with the vector of its text.
-/

namespace CodeAtlas

variable {σ : Type}

/-- Work that gives a different value succeeds when the work does. -/
theorem Work.exists_of_map_eq_ok {ε α β : Type} {f : α → β} {m : Work σ ε α} {w w' : World σ}
    {b : β} (h : (f <$> m) w = .ok b w') : ∃ a, m w = .ok a w' ∧ f a = b := by
  simp only [Functor.map, EStateM.map] at h
  cases hm : m w with
  | error e w'' =>
    rw [hm] at h
    cases h
  | ok a w'' =>
    rw [hm] at h
    cases h
    exact ⟨a, rfl, rfl⟩

/-! ## What is gathered -/

/-- Things paired with their vectors, without those that have none. -/
def embeddedEntries {α : Type} (things : List α) (vectors : List (Option Embedding)) :
    List (α × Embedding) :=
  (things.zip vectors).filterMap fun (thing, v?) => v?.map fun v => (thing, v)

section Gather

variable {α : Type} (things : List α) (vectors : List (Option Embedding))

/-- There is a vector for each thing that is gathered. -/
theorem length_gather :
    (gather things vectors).things.length = (gather things vectors).vectors.length := by
  fun_induction gather things vectors with
  | case1 thing things v vectors rest ih => exact congrArg Nat.succ ih
  | case2 thing things vectors rest ih => exact ih
  | case3 => rfl

/-- **Each thing stands at the position of its vector.** -/
theorem entries_gather : (gather things vectors).things.zip (gather things vectors).vectors =
    embeddedEntries things vectors := by
  fun_induction gather things vectors with
  | case1 thing things v vectors rest ih => exact congrArg ((thing, v) :: ·) ih
  | case2 thing things vectors rest ih => exact ih
  | case3 things vectors hsome hnone =>
    -- one of the lists is at its end
    rcases things with _ | ⟨thing, things⟩
    · rfl
    · rcases vectors with _ | ⟨_ | v, vectors⟩
      · rfl
      · exact (hnone thing things vectors rfl rfl).elim
      · exact (hsome thing things v vectors rfl rfl).elim

/-- The things that are gathered are the first parts of the pairs. -/
theorem things_gather :
    (gather things vectors).things = (embeddedEntries things vectors).map Prod.fst := by
  rw [← entries_gather, List.map_fst_zip (length_gather things vectors).le]

/-- So there are as many of them. -/
theorem length_things_gather :
    (gather things vectors).things.length = (embeddedEntries things vectors).length := by
  rw [things_gather, List.length_map]

variable {things vectors} in
/-- **Each thing is gathered or counted**, when there is an answer for each. -/
theorem skipped_gather (h : vectors.length = things.length) :
    (gather things vectors).skipped + (gather things vectors).things.length = things.length := by
  fun_induction gather things vectors with
  | case1 thing things v vectors rest ih => exact congrArg Nat.succ (ih (Nat.succ.inj h))
  | case2 thing things vectors rest ih =>
    exact (Nat.add_right_comm _ 1 _).trans (congrArg Nat.succ (ih (Nat.succ.inj h)))
  | case3 things vectors hsome hnone =>
    rcases things with _ | ⟨thing, things⟩
    · rfl
    · rcases vectors with _ | ⟨_ | v, vectors⟩
      · cases h
      · exact (hnone thing things vectors rfl rfl).elim
      · exact (hsome thing things v vectors rfl rfl).elim

end Gather

/-- Things with what they get, without those that get nothing. -/
def entriesOf {α : Type} (got : α → Option Embedding) (things : List α) : List (α × Embedding) :=
  things.filterMap fun thing => (got thing).map fun v => (thing, v)

/-- Pairing things with their vectors leaves out the things that get nothing. -/
theorem embeddedEntries_map {α : Type} (got : α → Option Embedding) (things : List α) :
    embeddedEntries things (things.map got) = entriesOf got things := by
  rw [embeddedEntries, ← List.map_prod_left_eq_zip, List.filterMap_map]
  rfl

/-- A thing stands in such a list with what it gets. -/
theorem mem_entriesOf {α : Type} {got : α → Option Embedding} {things : List α} {thing : α}
    {v : Embedding} : (thing, v) ∈ entriesOf got things ↔ thing ∈ things ∧ got thing = some v := by
  rw [entriesOf, List.mem_filterMap]
  constructor
  · rintro ⟨thing', hmem, hv⟩
    obtain ⟨v', hv', heq⟩ := Option.map_eq_some_iff.mp hv
    obtain ⟨rfl, rfl⟩ := Prod.mk.inj heq
    exact ⟨hmem, hv'⟩
  · rintro ⟨hmem, hv⟩
    exact ⟨thing, hmem, by rw [hv]; rfl⟩

/-- Two such lists are the same exactly when each thing gets the same. -/
theorem entriesOf_eq_iff {α : Type} {got got' : α → Option Embedding} {things : List α} :
    entriesOf got things = entriesOf got' things ↔ ∀ thing ∈ things, got thing = got' thing := by
  constructor
  · intro h thing hthing
    refine Option.ext fun v => ?_
    have hiff : (thing, v) ∈ entriesOf got things ↔ (thing, v) ∈ entriesOf got' things := by rw [h]
    rw [mem_entriesOf, mem_entriesOf] at hiff
    simpa [hthing] using hiff
  · intro h
    exact List.filterMap_congr fun thing hthing => by rw [h thing hthing]

/-- One of two things, by the cache that it is about. -/
def CacheKind.select {α : Type} (files identifiers : α) : CacheKind → α
  | .files => files
  | .identifiers => identifiers

namespace Indexer

variable {ix : Indexer σ} {kind : CacheKind} {items : List Item} {wanted : String → Bool}
    {w : World σ}

/-! ## One pass -/

/-- A pass succeeds when what it needs can be filled in. -/
theorem pass_of_fill {filled : Filled} {s : σ}
    (h : (ix.store.load kind w.disk).fill ix.batching ix.provider items w.memory =
      (.ok filled, s)) :
    ix.pass kind items wanted w = .ok (filled, (filled.cache.prune wanted).1)
      ⟨ix.savedCache kind (filled.cache.prune wanted).2 w.disk, s⟩ := by
  simp only [pass, bind, EStateM.bind, loadCache, fillCache, h, saveCache, pure, EStateM.pure]

/-- A pass fails when that cannot be filled in, and leaves the disk as it was. -/
theorem pass_of_unfilled {e : EmbedError} {s : σ}
    (h : (ix.store.load kind w.disk).fill ix.batching ix.provider items w.memory = (.error e, s)) :
    ix.pass kind items wanted w = .error e ⟨w.disk, s⟩ := by
  simp only [pass, bind, EStateM.bind, loadCache, fillCache, h]

/-- **How a pass can end**: with what was filled in, and the rest of it saved, or with a failure and
the disk as it was. -/
theorem pass_cases (ix : Indexer σ) (kind : CacheKind) (items : List Item) (wanted : String → Bool)
    (w : World σ) :
    (∃ filled s, (ix.store.load kind w.disk).fill ix.batching ix.provider items w.memory =
        (.ok filled, s) ∧
      ix.pass kind items wanted w = .ok (filled, (filled.cache.prune wanted).1)
        ⟨ix.savedCache kind (filled.cache.prune wanted).2 w.disk, s⟩) ∨
    ∃ e s, ix.pass kind items wanted w = .error e ⟨w.disk, s⟩ := by
  rcases hfill : (ix.store.load kind w.disk).fill ix.batching ix.provider items w.memory with
    ⟨e | filled, s⟩
  · exact .inr ⟨e, s, pass_of_unfilled hfill⟩
  · exact .inl ⟨filled, s, rfl, pass_of_fill hfill⟩

/-- **How the refresh of one cache can end.** -/
theorem refreshCache_cases (ix : Indexer σ) (kind : CacheKind) (removed : List String)
    (items : List Item) (w : World σ) :
    (∃ filled s, ((ix.store.load kind w.disk).prune fun key => !removed.any (belongsTo key)).2.fill
        ix.batching ix.provider items w.memory = (.ok filled, s) ∧
      ix.refreshCache kind removed items w =
        .ok (((ix.store.load kind w.disk).prune fun key => !removed.any (belongsTo key)).1,
          filled.embedded) ⟨ix.savedCache kind filled.cache w.disk, s⟩) ∨
    ∃ e s, ix.refreshCache kind removed items w = .error e ⟨w.disk, s⟩ := by
  rcases hfill : ((ix.store.load kind w.disk).prune fun key => !removed.any (belongsTo key)).2.fill
    ix.batching ix.provider items w.memory with ⟨e | filled, s⟩
  · refine .inr ⟨e, s, ?_⟩
    simp only [refreshCache, bind, EStateM.bind, loadCache, fillCache, hfill]
  · refine .inl ⟨filled, s, rfl, ?_⟩
    simp only [refreshCache, bind, EStateM.bind, loadCache, fillCache, hfill, saveCache, pure,
      EStateM.pure]

/-! ## Builds -/

/-- The file index made of a pass. -/
def fileIndexOf (c : Corpus) (filled : Filled) (pruned : Nat) : FileIndex :=
  let gathered := gather c.documents filled.vectors
  ⟨gathered.things, gathered.vectors, {
    filesScanned := c.scanned
    documents := gathered.things.length
    identifiers := 0
    cacheHits := filled.hits
    embedded := filled.embedded
    skippedFiles := c.skipped
    skippedEmbeddings := gathered.skipped
    pruned := pruned }⟩

/-- The identifier index made of a pass. -/
def identifierIndexOf (c : Corpus) (filled : Filled) (pruned : Nat) : IdentifierIndex :=
  let gathered := gather c.identifiers filled.vectors
  ⟨gathered.things, gathered.vectors, c.sources, {
    filesScanned := c.scanned
    documents := c.sources.size
    identifiers := gathered.things.length
    cacheHits := filled.hits
    embedded := filled.embedded
    skippedFiles := c.skipped
    skippedEmbeddings := gathered.skipped
    pruned := pruned }⟩

/-- The documents of such an index with their vectors. -/
theorem entries_fileIndexOf (c : Corpus) (filled : Filled) (pruned : Nat) :
    (fileIndexOf c filled pruned).entries = embeddedEntries c.documents filled.vectors :=
  entries_gather c.documents filled.vectors

/-- The identifiers of such an index with their vectors. -/
theorem entries_identifierIndexOf (c : Corpus) (filled : Filled) (pruned : Nat) :
    (identifierIndexOf c filled pruned).entries = embeddedEntries c.identifiers filled.vectors :=
  entries_gather c.identifiers filled.vectors

/-- A file build is a pass over the documents. -/
theorem buildFiles_eq_map (ix : Indexer σ) (c : Corpus) :
    ix.buildFiles c = (fun result => fileIndexOf c result.1 result.2) <$>
      ix.pass .files c.fileItems c.keepsFile := by
  funext w
  simp only [buildFiles, bind, EStateM.bind, Functor.map, EStateM.map]
  cases ix.pass .files c.fileItems c.keepsFile w <;> rfl

/-- An identifier build is a pass over the identifiers. -/
theorem buildIdentifiers_eq_map (ix : Indexer σ) (c : Corpus) :
    ix.buildIdentifiers c = (fun result => identifierIndexOf c result.1 result.2) <$>
      ix.pass .identifiers c.identifierItems c.keepsIdentifier := by
  funext w
  simp only [buildIdentifiers, bind, EStateM.bind, Functor.map, EStateM.map]
  cases ix.pass .identifiers c.identifierItems c.keepsIdentifier w <;> rfl

/-- A file build succeeds when what it needs can be filled in. -/
theorem buildFiles_of_fill {c : Corpus} {filled : Filled} {s : σ}
    (h : (ix.store.load .files w.disk).fill ix.batching ix.provider c.fileItems w.memory =
      (.ok filled, s)) :
    ix.buildFiles c w = .ok (fileIndexOf c filled (filled.cache.prune c.keepsFile).1)
      ⟨ix.savedCache .files (filled.cache.prune c.keepsFile).2 w.disk, s⟩ := by
  rw [buildFiles_eq_map]
  simp only [Functor.map, EStateM.map, pass_of_fill h]

/-! ## Builds with an embedder that always gives the same -/

variable {g : String → Option Embedding}

/-- What a pass fills in. -/
def passFilled (ix : Indexer σ) (g : String → Option Embedding) (kind : CacheKind)
    (items : List Item) (d : Disk) : Filled :=
  (ix.store.load kind d).filled items ((ix.store.load kind d).answersOf g items)

/-- Such a pass succeeds. -/
theorem pass_eq (hg : ix.batching.Gives ix.provider g) (kind : CacheKind) (items : List Item)
    (wanted : String → Bool) (w : World σ) :
    ∃ s, ix.pass kind items wanted w =
      .ok (ix.passFilled g kind items w.disk,
          ((ix.passFilled g kind items w.disk).cache.prune wanted).1)
        ⟨ix.savedCache kind ((ix.passFilled g kind items w.disk).cache.prune wanted).2 w.disk,
          s⟩ := by
  obtain ⟨s, hfill⟩ := Cache.fill_eq hg items (ix.store.load kind w.disk) w.memory
  refine ⟨s, ?_⟩
  simp only [pass, bind, EStateM.bind, loadCache, fillCache, hfill, saveCache, pure, EStateM.pure]
  rfl

/-- **A file build** succeeds, and each document gets what the cache has of it, or else the vector
of its text. -/
theorem buildFiles_eq (hg : ix.batching.Gives ix.provider g) (c : Corpus) (w : World σ) :
    ∃ index s, ix.buildFiles c w = .ok index
        ⟨ix.savedCache .files
          ((ix.passFilled g .files c.fileItems w.disk).cache.prune c.keepsFile).2
          w.disk, s⟩ ∧
      index.entries =
        entriesOf (fun d => (ix.store.load .files w.disk).recalled g d.item) c.documents ∧
      index.stats.embedded = (ix.passFilled g .files c.fileItems w.disk).embedded ∧
      index.stats.cacheHits = (ix.passFilled g .files c.fileItems w.disk).hits := by
  obtain ⟨s, hpass⟩ := pass_eq hg .files c.fileItems c.keepsFile w
  refine ⟨fileIndexOf c (ix.passFilled g .files c.fileItems w.disk)
    ((ix.passFilled g .files c.fileItems w.disk).cache.prune c.keepsFile).1, s, ?_, ?_, rfl, rfl⟩
  · rw [buildFiles_eq_map]
    simp only [Functor.map, EStateM.map, hpass]
  · rw [entries_fileIndexOf, ← embeddedEntries_map]
    simp only [passFilled, Cache.filled, Cache.closeGaps_answersOf, Corpus.fileItems,
      List.map_map]
    rfl

/-- **An identifier build** succeeds, and each identifier gets what the cache has of it, or else the
vector of its text. -/
theorem buildIdentifiers_eq (hg : ix.batching.Gives ix.provider g) (c : Corpus) (w : World σ) :
    ∃ index s, ix.buildIdentifiers c w = .ok index
        ⟨ix.savedCache .identifiers
          ((ix.passFilled g .identifiers c.identifierItems w.disk).cache.prune c.keepsIdentifier).2
          w.disk, s⟩ ∧
      index.entries =
        entriesOf (fun i => (ix.store.load .identifiers w.disk).recalled g i.item) c.identifiers ∧
      index.sources = c.sources ∧
      index.stats.embedded = (ix.passFilled g .identifiers c.identifierItems w.disk).embedded ∧
      index.stats.cacheHits = (ix.passFilled g .identifiers c.identifierItems w.disk).hits := by
  obtain ⟨s, hpass⟩ := pass_eq hg .identifiers c.identifierItems c.keepsIdentifier w
  refine ⟨identifierIndexOf c (ix.passFilled g .identifiers c.identifierItems w.disk)
    ((ix.passFilled g .identifiers c.identifierItems w.disk).cache.prune c.keepsIdentifier).1, s,
    ?_, ?_, rfl, rfl, rfl⟩
  · rw [buildIdentifiers_eq_map]
    simp only [Functor.map, EStateM.map, hpass]
  · rw [entries_identifierIndexOf, ← embeddedEntries_map]
    simp only [passFilled, Cache.filled, Cache.closeGaps_answersOf,
      Corpus.identifierItems, List.map_map]
    rfl

/-! ## The caches afterwards -/

/-- Saving a cache, whatever its vectors are. -/
theorem written_savedCache (kind : CacheKind) {d d' : Disk} {home : Place}
    (h : ix.store.Opens d d' home) (c : Cache) :
    ix.store.Written home kind c d' (ix.savedCache kind c d) := by
  obtain ⟨d'', hsave, hwritten⟩ := h.write kind c
  rwa [savedCache, hsave]

/-- Saving a storable cache. -/
theorem saved_savedCache (kind : CacheKind) {d d' : Disk} {home : Place}
    (h : ix.store.Opens d d' home) {c : Cache} (hc : c.Storable) :
    ix.store.Saved home kind c d' (ix.savedCache kind c d) := by
  obtain ⟨d'', hsave, hsaved⟩ := h.save kind hc
  rwa [savedCache, hsave]

/-- Both caches are saved, one after the other, and neither is in the way of the other. -/
theorem written_savedCaches {d d' d₁ d₂ : Disk} {home : Place} (h : ix.store.Opens d d' home)
    {m m' : Cache} (h₁ : d₁ = ix.savedCache .files m d)
    (h₂ : d₂ = ix.savedCache .identifiers m' d₁) :
    ix.store.Written home .files m d' d₁ ∧ ix.store.Written home .identifiers m' d₁ d₂ ∧
      ix.store.load .identifiers d₁ = ix.store.load .identifiers d ∧
      ix.store.load .files d₂ = ix.store.load .files d₁ := by
  have hfirst := ix.written_savedCache .files h m
  rw [← h₁] at hfirst
  have hsecond := ix.written_savedCache .identifiers hfirst.settled.opens m'
  rw [← h₂] at hsecond
  refine ⟨hfirst, hsecond, ?_, hsecond.other .files nofun⟩
  rw [hfirst.other .identifiers nofun, h.loads]

/-- **After a pass the cache on the disk has each item** whose key was wanted, with what the item
got. -/
theorem vector?_load_of_saved {d d' : Disk} (hkeyed : Cache.Keyed items)
    (hloaded : (ix.store.load kind d').Equiv ((ix.passFilled g kind items d).cache.prune wanted).2)
    {i : Item} (hi : i ∈ items) (hwanted : wanted i.key = true) :
    (ix.store.load kind d').vector? i.key i.hash = (ix.store.load kind d).recalled g i := by
  rw [← Cache.vector?_learnAll hi fun j hj hkey => hkeyed j hj i hi hkey]
  refine Cache.vector?_congr ?_ _
  rw [hloaded.getElem?_eq, Cache.getElem?_prune, if_pos hwanted]
  rfl

end Indexer

end CodeAtlas
