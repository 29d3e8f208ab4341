import CodeAtlas.Proofs.Embedding.Settled
import CodeAtlas.Proofs.Index.Past
import CodeAtlas.Proofs.Index.Rebuild

/-!
# Every vector stands with its own thing

Setup: a build looks its things up in the cache, sends the texts of those that are missing, and puts
the answers into the gaps. `Cache.Aligns` says what that ought to come to, thing by thing and
without any gaps: a thing that the cache knows is indexed with the vector from the cache; a missing
one takes the next answer, and is left out when that answer is empty.

**`Indexer.build_aligned`** is the main result. Whatever the cache holds and whatever the provider
does, a build that succeeds is aligned in this way, for files and for identifiers alike, and what it
counts is what there is. That each answer belongs to the text it stands for is
`ShrinkPolicy.Settles`.
-/

namespace CodeAtlas

open CodeAtlas.Fingerprint (contentHash)

variable {σ α : Type}

namespace Cache

variable {m : Cache} {item : α → Item} {things : List α} {answers : List (Option Embedding)}
  {entries : List (α × Embedding)}

/-- The cache has the vector `v` of a text with the hash of the item's text. -/
def Knows (m : Cache) (i : Item) (v : Embedding) : Prop :=
  m[i.key]? = some ⟨contentHash i.text, v⟩

/-- Things are indexed in order, each with its own vector. -/
inductive Aligns (m : Cache) (item : α → Item) :
    List α → List (Option Embedding) → List (α × Embedding) → Prop where
  /-- there is nothing to index -/
  | nil : Aligns m item [] [] []
  /-- the cache knows the thing -/
  | cached {thing : α} {things : List α} {v : Embedding} {answers : List (Option Embedding)}
      {entries : List (α × Embedding)} (known : m.Knows (item thing) v)
      (rest : Aligns m item things answers entries) :
      Aligns m item (thing :: things) answers ((thing, v) :: entries)
  /-- the cache does not know the thing, and its answer is a vector -/
  | fresh {thing : α} {things : List α} {v : Embedding} {answers : List (Option Embedding)}
      {entries : List (α × Embedding)} (unknown : ∀ v, ¬m.Knows (item thing) v)
      (rest : Aligns m item things answers entries) :
      Aligns m item (thing :: things) (some v :: answers) ((thing, v) :: entries)
  /-- the cache does not know the thing, and its answer is empty -/
  | skipped {thing : α} {things : List α} {answers : List (Option Embedding)}
      {entries : List (α × Embedding)} (unknown : ∀ v, ¬m.Knows (item thing) v)
      (rest : Aligns m item things answers entries) :
      Aligns m item (thing :: things) (none :: answers) entries

/-- What a lookup finds is what the cache knows. -/
theorem vector?_eq_some_iff_knows {i : Item} {v : Embedding} :
    m.vector? i.key i.hash = some v ↔ m.Knows i v :=
  vector?_eq_some

/-- A lookup finds nothing when the cache knows nothing. -/
theorem vector?_eq_none_iff_knows {i : Item} :
    m.vector? i.key i.hash = none ↔ ∀ v, ¬m.Knows i v := by
  rw [Option.eq_none_iff_forall_ne_some]
  exact forall_congr' fun v => not_congr vector?_eq_some_iff_knows

/-- A known item is not missing. -/
theorem missing_cons_of_knows {i : Item} {v : Embedding} (h : m.Knows i v) (items : List Item) :
    m.missing (i :: items) = m.missing items := by
  have hlookup := vector?_eq_some_iff_knows.mpr h
  rw [missing, List.filter_cons_of_neg (by simp [hlookup]), ← missing]

/-- An unknown item is missing. -/
theorem missing_cons_of_unknown {i : Item} (h : ∀ v, ¬m.Knows i v) (items : List Item) :
    m.missing (i :: items) = i :: m.missing items := by
  have hlookup := vector?_eq_none_iff_knows.mpr h
  rw [missing, List.filter_cons_of_pos (by simp [hlookup]), ← missing]

/-- **Closing the gaps aligns**, when there is an answer for each missing thing. -/
theorem aligns_closeGaps (h : answers.length = (m.missing (things.map item)).length) :
    m.Aligns item things answers
      (embeddedEntries things (closeGaps (m.found (things.map item)) answers)) := by
  induction things generalizing answers with
  | nil =>
    obtain rfl := List.length_eq_zero_iff.mp h
    exact .nil
  | cons thing things ih =>
    rw [List.map_cons] at h
    cases hlookup : m.vector? (item thing).key (item thing).hash with
    | some v =>
      have hknown := vector?_eq_some_iff_knows.mp hlookup
      rw [missing_cons_of_knows hknown] at h
      rw [List.map_cons, found, List.map_cons, hlookup, closeGaps, ← found]
      exact .cached hknown (ih h)
    | none =>
      have hunknown := vector?_eq_none_iff_knows.mp hlookup
      rw [missing_cons_of_unknown hunknown, List.length_cons] at h
      obtain ⟨answer, answers, rfl⟩ := List.exists_cons_of_length_eq_add_one h
      rw [List.map_cons, found, List.map_cons, hlookup, closeGaps, ← found]
      have hrest := ih (Nat.succ.inj h)
      cases answer with
      | some v => exact .fresh hunknown hrest
      | none => exact .skipped hunknown hrest

namespace Aligns

/-- What is indexed is a part of the things, in their order. -/
theorem sublist (h : m.Aligns item things answers entries) :
    (entries.map Prod.fst).Sublist things := by
  induction h with
  | nil => exact .slnil
  | cached _ _ ih => exact ih.cons_cons _
  | fresh _ _ ih => exact ih.cons_cons _
  | skipped _ _ ih => exact ih.cons _

/-- As many things are indexed as were known, and as got a vector. -/
theorem length_eq (h : m.Aligns item things answers entries) :
    entries.length = ((m.found (things.map item)).filter Option.isSome).length +
      (answers.filter Option.isSome).length := by
  induction h with
  | nil => rfl
  | cached known _ ih =>
    rw [List.map_cons, found, List.map_cons, vector?_eq_some_iff_knows.mpr known, ← found,
      List.filter_cons_of_pos rfl, List.length_cons, List.length_cons, ih]
    omega
  | fresh unknown _ ih =>
    rw [List.map_cons, found, List.map_cons, vector?_eq_none_iff_knows.mpr unknown, ← found,
      List.filter_cons_of_neg (by simp), List.filter_cons_of_pos rfl, List.length_cons,
      List.length_cons, ih]
    omega
  | skipped unknown _ ih =>
    rw [List.map_cons, found, List.map_cons, vector?_eq_none_iff_knows.mpr unknown, ← found,
      List.filter_cons_of_neg (by simp), List.filter_cons_of_neg (by simp), ih]

end Aligns

/-- **Filling succeeds exactly when the texts of the missing items are answered.** They are asked
for in order, and nothing else is. -/
theorem fill_eq_ok_iff {b : Batching} {provider : Provider σ Embedding} {items : List Item}
    {s s' : σ} {result : Filled} : m.fill b provider items s = (.ok result, s') ↔
      ∃ answers, b.embedLenient provider ((m.missing items).map Item.text) s = (.ok answers, s') ∧
        m.filled items answers = result := by
  rcases fill_cases b provider items m s with ⟨hnone, hfill⟩ | ⟨answers, t, hcall, hfill⟩ |
    ⟨e, t, hcall, hfill⟩
  · rw [hfill, hnone, List.map_nil, Batching.embedLenient, Batching.embedBatches]
    simp [and_comm]
  · rw [hfill, hcall]
    simp [and_comm]
  · rw [hfill, hcall]
    simp

/-- What filling gives counts the answers that are vectors. -/
theorem embedded_filled {items : List Item} (h : answers.length = (m.missing items).length) :
    (m.filled items answers).embedded = (answers.filter Option.isSome).length := by
  have hzip : (((m.missing items).zip answers).map Prod.snd) = answers := List.map_snd_zip h.le
  conv_rhs => rw [← hzip, List.filter_map, List.length_map]
  rfl

end Cache

/-! ## Corpora -/

/-- A file gives a document or is skipped, and not both. -/
theorem FileReading.document?_isNone_eq (reading : FileReading) :
    reading.document?.isNone = reading.isSkipped := by
  cases reading <;> rfl

/-- **Each file is counted once**, as a document or as skipped. -/
theorem Corpus.scanned_ofReadings (readings : List FileReading) :
    (ofReadings readings).scanned =
      (ofReadings readings).documents.length + (ofReadings readings).skipped := by
  show readings.length = (readings.filterMap FileReading.document?).length +
    readings.countP FileReading.isSkipped
  induction readings with
  | nil => rfl
  | cons reading readings ih =>
    rw [List.length_cons, List.countP_cons, ← reading.document?_isNone_eq, ih]
    cases hdocument : reading.document? with
    | some document =>
      rw [List.filterMap_cons_some hdocument, List.length_cons]
      exact Nat.add_right_comm _ _ _
    | none =>
      rw [List.filterMap_cons_none hdocument]
      rfl

/-! ## Builds -/

namespace Indexer

/-- How a build that starts in `w` and ends in `w'` accounts for its things: `indexed` is what it
indexes, and `vectors` are the vectors of the index. -/
structure Accounts (ix : Indexer σ) (kind : CacheKind) (item : α → Item) (things : List α)
    (w w' : World σ) (indexed : List α) (vectors : List Embedding) (stats : BuildStats) : Prop where
  /-- there is a vector for each thing that is indexed -/
  paired : indexed.length = vectors.length
  /-- the texts of the missing things are sent, each answer settles its own text, and the things are
  aligned with the cache of before and these answers -/
  aligned : ∃ answers,
    let m := ix.store.load kind w.disk
    let texts := (m.missing (things.map item)).map Item.text
    ix.batching.embedLenient ix.provider texts w.memory = (.ok answers, w'.memory) ∧
      List.Forall₂ (ix.batching.policy.Settles ix.provider) texts answers ∧
      m.Aligns item things answers (indexed.zip vectors)
  /-- what is indexed is a part of the things, in their order -/
  sublist : indexed.Sublist things
  /-- each vector is one from the cache or one that is new -/
  counted : stats.cacheHits + stats.embedded = indexed.length
  /-- everything else is counted as skipped -/
  skipped : indexed.length + stats.skippedEmbeddings = things.length

/-- A pass that succeeds got its answers, and gives what they fill in. -/
theorem answers_of_pass {ix : Indexer σ} {kind : CacheKind} {items : List Item}
    {wanted : String → Bool}
    {w w' : World σ} {result : Filled × Nat} (h : ix.pass kind items wanted w = .ok result w') :
    ∃ answers, ix.batching.embedLenient ix.provider
        (((ix.store.load kind w.disk).missing items).map Item.text) w.memory =
          (.ok answers, w'.memory) ∧
      (ix.store.load kind w.disk).filled items answers = result.1 := by
  rcases ix.pass_cases kind items wanted w with ⟨filled, s, hfill, hpass⟩ | ⟨e, s, hpass⟩
  · rw [hpass] at h
    cases h
    exact Cache.fill_eq_ok_iff.mp hfill
  · rw [hpass] at h
    cases h

/-- A pass that succeeds accounts for what is gathered of whatever has the items of the pass. -/
theorem accounts_of_pass {ix : Indexer σ} {kind : CacheKind} {item : α → Item} {things : List α}
    {wanted : String → Bool} {w w' : World σ} {result : Filled × Nat}
    (h : ix.pass kind (things.map item) wanted w = .ok result w') (stats : BuildStats)
    (hhits : stats.cacheHits = result.1.hits) (hembedded : stats.embedded = result.1.embedded)
    (hskipped : stats.skippedEmbeddings = (gather things result.1.vectors).skipped) :
    ix.Accounts kind item things w w' (gather things result.1.vectors).things
      (gather things result.1.vectors).vectors stats := by
  obtain ⟨answers, hcall, hresult⟩ := answers_of_pass h
  rw [← hresult] at hhits hembedded hskipped ⊢
  have hsettles := Batching.settles_of_embedLenient hcall
  have hlength :
      answers.length = ((ix.store.load kind w.disk).missing (things.map item)).length := by
    rw [← hsettles.length_eq, List.length_map]
  have haligns := Cache.aligns_closeGaps hlength
  refine ⟨length_gather _ _, ⟨answers, hcall, hsettles, ?_⟩, ?_, ?_, ?_⟩
  · rw [entries_gather]
    exact haligns
  · rw [things_gather]
    exact haligns.sublist
  · rw [hhits, hembedded, Cache.embedded_filled hlength, length_things_gather]
    exact haligns.length_eq.symm
  · -- there is a slot for each thing
    have hslots : (Cache.closeGaps ((ix.store.load kind w.disk).found (things.map item))
        answers).length = things.length := by
      rw [Cache.length_closeGaps, Cache.found, List.length_map, List.length_map]
    rw [hskipped, Nat.add_comm]
    exact skipped_gather hslots

/-- **A build aligns each thing with its vector, and counts what there is.** The cache on the disk
of `w` and the provider are arbitrary. -/
theorem build_aligned (ix : Indexer σ) (c : Corpus) (w : World σ) :
    (∀ index w', ix.buildFiles c w = .ok index w' →
      ix.Accounts .files Document.item c.documents w w' index.documents index.vectors index.stats ∧
      index.stats.documents = index.documents.length ∧
      ∀ readings, c = .ofReadings readings → index.stats.filesScanned =
        index.stats.documents + index.stats.skippedFiles + index.stats.skippedEmbeddings) ∧
    ∀ index w', ix.buildIdentifiers c w = .ok index w' →
      ix.Accounts .identifiers Identifier.item c.identifiers w w' index.identifiers index.vectors
        index.stats ∧
      index.stats.identifiers = index.identifiers.length := by
  constructor
  · intro index w' h
    rw [buildFiles_eq_map] at h
    obtain ⟨result, hpass, rfl⟩ := Work.exists_of_map_eq_ok h
    have haccounts := accounts_of_pass hpass (fileIndexOf c result.1 result.2).stats rfl rfl rfl
    refine ⟨haccounts, rfl, fun readings hc => ?_⟩
    have hscanned := Corpus.scanned_ofReadings readings
    rw [← hc] at hscanned
    have hskipped := haccounts.skipped
    simp only [fileIndexOf] at hskipped ⊢
    omega
  · intro index w' h
    rw [buildIdentifiers_eq_map] at h
    obtain ⟨result, hpass, rfl⟩ := Work.exists_of_map_eq_ok h
    exact ⟨accounts_of_pass hpass (identifierIndexOf c result.1 result.2).stats rfl rfl rfl, rfl⟩

end Indexer

/-! ## Four files

The cache knows one of them, one cannot be read, one is too long for the model, and one is new. -/

/-- A provider that refuses texts of more than twenty characters. -/
def Provider.brief : Provider Unit Embedding where
  name := "brief"
  embed texts s :=
    if texts.all fun text => text.length ≤ 20 then (.ok (texts.map fun _ => #[2.0]), s)
    else (.error (.tooLong "refused"), s)

/-- An indexer with that provider, which shortens no text. -/
def briefIndexer : Indexer Unit :=
  (givingIndexer fun _ => #[2.0]).embeddingWith ⟨2, ⟨0.5, 0⟩, Nat.two_pos⟩ .brief

/-- What the files give. -/
def fourReadings : List FileReading :=
  [.text ⟨"notes.md", "", [], [], "note"⟩, .skipped,
    .text ⟨"long.md", "", [], [], "a text that is too long"⟩,
      .text ⟨"plain.md", "", [], [], "plain"⟩]

/-- The items of the documents that the cache does not know. -/
def newItems : List Item :=
  [⟨"long.md", "long.md\na text that is too long"⟩, ⟨"plain.md", "plain.md\nplain"⟩]

theorem fileItems_fourReadings :
    (Corpus.ofReadings fourReadings).fileItems = noteItem :: newItems := by decide

/-- The cache knows the first document, and misses the others. -/
theorem found_afterFirst :
    (briefIndexer.store.load .files afterFirst).found (noteItem :: newItems) =
        [some #[1.0], none, none] ∧
      (briefIndexer.store.load .files afterFirst).missing (noteItem :: newItems) = newItems := by
  have hknown : (briefIndexer.store.load .files afterFirst).vector? noteItem.key noteItem.hash =
      some #[1.0] := vector?_afterFirst #[2.0]
  have hstorable : ∀ text v, madeFirst text v → v.Storable := by
    rintro text v ⟨-, rfl⟩
    exact Embedding.storable_one
  have hhonest : (briefIndexer.store.load .files afterFirst).Honest madeFirst :=
    ((past_afterFirst #[2.0]).trusty hstorable).honest .files
  -- each entry was made from the text of the note, and has its hash
  have hunknown : ∀ i ∈ newItems,
      (briefIndexer.store.load .files afterFirst).vector? i.key i.hash = none := by
    intro i hi
    have hhash : noteItem.hash ≠ i.hash := by
      revert i
      decide +kernel
    rw [Option.eq_none_iff_forall_ne_some]
    intro v hv
    obtain ⟨text, hsame, rfl, -⟩ := hhonest i.key _ (Cache.vector?_eq_some.mp hv)
    exact hhash hsame
  constructor
  · rw [Cache.found, List.map_cons, hknown, List.map_congr_left hunknown]
    rfl
  · rw [Cache.missing, List.filter_cons_of_neg (by rw [hknown]; exact Bool.false_ne_true)]
    exact List.filter_eq_self.mpr fun i hi => by rw [hunknown i hi]; rfl

/-- The first document is found, the second one gets no vector, and the third one is embedded. -/
theorem Indexer.build_aligned_fourReadings :
    ∃ index w', briefIndexer.buildFiles (.ofReadings fourReadings) ⟨afterFirst, ()⟩ = .ok index w' ∧
      briefIndexer.Accounts .files Document.item (Corpus.ofReadings fourReadings).documents
        ⟨afterFirst, ()⟩ w' index.documents index.vectors index.stats ∧
      index.documents.map Document.path = ["notes.md", "plain.md"] ∧
      index.vectors = [#[1.0], #[2.0]] ∧
      (index.stats.cacheHits = 1 ∧ index.stats.embedded = 1 ∧ index.stats.skippedEmbeddings = 1) ∧
      index.stats.filesScanned =
        index.stats.documents + index.stats.skippedFiles + index.stats.skippedEmbeddings := by
  obtain ⟨hfound, hmissing⟩ := found_afterFirst
  have hcall : briefIndexer.batching.embedLenient briefIndexer.provider
      (newItems.map Item.text) () = (.ok [none, some #[2.0]], ()) := by
    have hlong : ¬("long.md\na text that is too long".length ≤ 20) := by decide
    have hplain : "plain.md\nplain".length ≤ 20 := by decide
    simp [newItems, Batching.embedLenient, Batching.embedBatches, Batching.embedChunk,
      Batching.shrink, briefIndexer, embeddingWith, Provider.brief, hlong, hplain]
  obtain ⟨filled, hfilled⟩ : ∃ filled, filled = (briefIndexer.store.load .files afterFirst).filled
    (noteItem :: newItems) [none, some #[2.0]] := ⟨_, rfl⟩
  have hfill : (briefIndexer.store.load .files afterFirst).fill briefIndexer.batching
      briefIndexer.provider (Corpus.ofReadings fourReadings).fileItems () = (.ok filled, ()) := by
    rw [fileItems_fourReadings]
    exact Cache.fill_eq_ok_iff.mpr ⟨_, by rw [hmissing]; exact hcall, hfilled.symm⟩
  have hbuild := buildFiles_of_fill (w := ⟨afterFirst, ()⟩) hfill
  have hvectors : filled.vectors = [some #[1.0], none, some #[2.0]] := by
    rw [hfilled, Cache.filled, hfound]
    rfl
  have hhits : filled.hits = 1 := by
    rw [hfilled, Cache.filled, hfound]
    rfl
  have hembedded : filled.embedded = 1 := by
    rw [hfilled, Cache.filled, hmissing]
    rfl
  obtain ⟨haccounts, -, hscanned⟩ := (build_aligned briefIndexer _ _).1 _ _ hbuild
  refine ⟨_, _, hbuild, haccounts, ?_, ?_, ⟨hhits, hembedded, ?_⟩, hscanned _ rfl⟩
  all_goals
    simp only [fileIndexOf, hvectors]
    rfl

end CodeAtlas
