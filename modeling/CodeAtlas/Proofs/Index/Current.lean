import CodeAtlas.Proofs.Cache.Finite
import CodeAtlas.Proofs.Index.Ready

/-!
# Builds with one embedder

Setup: an embedder gives each text its vector, every time (`Indexer.Steady`), and the caches hold
nothing but vectors that it made (`Indexer.Current`). That is an invariant of all work on the
caches, whatever is in the tree and whatever the vectors are (`Indexer.Current.advance`): a cache is
reloaded as it was saved, or empty.

A build of both indexes keeps it, gives everything in the tree its vector, counts as embedded what
the caches miss, and saves caches that have everything: **`Indexer.Current.buildBoth`**.
-/

namespace CodeAtlas

open CodeAtlas.Disk CodeAtlas.Path
open CodeAtlas.CacheStore (Owns)
open CodeAtlas.Fingerprint (contentHash)

variable {σ : Type} {ix : Indexer σ} {origin home : Place} {texts : String → Prop}
  {f : String → Embedding} {kind : CacheKind} {d d' : Disk}

/-! ## What caches have -/

/-- The cache has the vector of an item. -/
def Cache.Has (f : String → Embedding) (c : Cache) (i : Item) : Prop :=
  c.vector? i.key i.hash = some (f i.text)

/-- Caches with the same entries have the same. -/
theorem Cache.has_congr {c c' : Cache} (h : c'.Equiv c) (i : Item) : c'.Has f i ↔ c.Has f i := by
  rw [Has, Has, vector?_congr h.getElem?_eq]

/-- An empty cache has nothing. -/
theorem Cache.not_has_empty (i : Item) : ¬(∅ : Cache).Has f i := by
  rw [Has, vector?_of_isEmpty Std.TreeMap.isEmpty_emptyc]
  exact nofun

/-- **What a reloaded cache has**: what was saved, if all that was saved is finite. -/
theorem Cache.Reloads.has_iff {saved loaded : Cache} (h : saved.Reloads loaded) (i : Item) :
    loaded.Has f i ↔ saved.Finite ∧ saved.Has f i := by
  by_cases hfinite : saved.Finite
  · rw [has_congr (h.kept hfinite)]
    exact (and_iff_right hfinite).symm
  · rw [h.lost hfinite]
    exact iff_of_false (not_has_empty i) fun hboth => hfinite hboth.1

/-- What an embedder makes of some texts. -/
def madeOf (texts : String → Prop) (f : String → Embedding) (text : String) (v : Embedding) :
    Prop :=
  texts text ∧ v = f text

/-- The items of a corpus for each of the caches. -/
def Corpus.items (c : Corpus) (kind : CacheKind) : List Item :=
  kind.select c.fileItems c.identifierItems

/-- What was counted for each of two indexes. -/
def statsOf (index : FileIndex × IdentifierIndex) (kind : CacheKind) : BuildStats :=
  kind.select index.1.stats index.2.stats

/-- A build embeds the items that its cache misses, and finds the others. -/
structure Counted (m : Cache) (items : List Item) (stats : BuildStats) : Prop where
  /-- what is missing is embedded -/
  embedded : stats.embedded = (m.missing items).length
  /-- every item is found or embedded -/
  total : stats.cacheHits + stats.embedded = items.length

/-- When every text gets a vector, filling embeds what is missing and finds the rest. -/
theorem Cache.counted_filled (m : Cache) (items : List Item) {stats : BuildStats}
    (hembedded : stats.embedded =
      (m.filled items (m.answersOf (fun text => some (f text)) items)).embedded)
    (hhits : stats.cacheHits =
      (m.filled items (m.answersOf (fun text => some (f text)) items)).hits) :
    Counted m items stats := by
  have hanswers : ((m.missing items).map fun i => (i, some (f i.text))).filter
      (fun answer => answer.2.isSome) = (m.missing items).map fun i => (i, some (f i.text)) :=
    List.filter_eq_self.mpr fun answer hanswer => by
      obtain ⟨i, -, rfl⟩ := List.mem_map.mp hanswer
      rfl
  have hmissing : stats.embedded = (m.missing items).length := by
    rw [hembedded, filled, zip_answersOf, hanswers, List.length_map]
  refine ⟨hmissing, ?_⟩
  have hnone : (m.missing items).length =
      items.countP fun i => decide ¬(m.vector? i.key i.hash).isSome = true := by
    rw [missing, ← List.countP_eq_length_filter]
    exact List.countP_congr fun i _ => by cases m.vector? i.key i.hash <;> simp
  have hsome : stats.cacheHits = items.countP fun i => (m.vector? i.key i.hash).isSome := by
    rw [hhits, filled, found, List.filter_map, List.length_map, ← List.countP_eq_length_filter]
    rfl
  rw [hsome, hmissing, hnone]
  exact (List.length_eq_countP_add_countP fun i : Item => (m.vector? i.key i.hash).isSome).symm

namespace Indexer

/-- The embedder gives each text its vector; of the texts in play, numbers in the vectors are read
back, and the hashes are different. -/
structure Steady (ix : Indexer σ) (texts : String → Prop) (f : String → Embedding) : Prop where
  /-- every request is answered -/
  answers : ix.provider.Answers f
  /-- a finite component is read back from its decimal -/
  legible : ∀ text, texts text → (f text).Legible
  /-- the hashes are different -/
  distinct : ∀ text text', texts text → texts text' → contentHash text = contentHash text' →
    text = text'

/-- An indexer can work on the disk, and its caches hold nothing but vectors of the texts in play.
-/
structure Current (ix : Indexer σ) (origin home : Place) (texts : String → Prop)
    (f : String → Embedding) (d : Disk) : Prop where
  /-- the indexer can work there -/
  ready : ix.Ready origin home d
  /-- each entry was made from a text with its hash -/
  honest : ∀ kind, (ix.store.load kind d).Honest (madeOf texts f)

/-- What an item gets, from the cache or from the embedder, is the vector of its text. -/
theorem Steady.recalled_eq (hix : ix.Steady texts f) {c : Cache} (hc : c.Honest (madeOf texts f))
    {i : Item} (hi : texts i.text) :
    c.recalled (fun text => some (f text)) i = some (f i.text) := by
  refine recalled_eq_iff.mpr fun v hv => ?_
  have hmade := hc.made_of_vector? (fun text v htext => hix.distinct text i.text htext.1 hi) hv
  rw [hmade.2]

/-- **An honest cache misses what it does not have**, and nothing else. -/
theorem Steady.missing_eq_nil_iff (hix : ix.Steady texts f) {c : Cache}
    (hc : c.Honest (madeOf texts f)) {items : List Item} (htexts : ∀ i ∈ items, texts i.text) :
    c.missing items = [] ↔ ∀ i ∈ items, c.Has f i := by
  rw [Cache.missing, List.filter_eq_nil_iff]
  refine forall₂_congr fun i hi => ?_
  have hrecalled := hix.recalled_eq hc (htexts i hi)
  rw [Cache.Has, Option.isNone_iff_eq_none]
  constructor
  · intro hsome
    obtain ⟨v, hv⟩ := Option.ne_none_iff_exists'.mp hsome
    rw [Cache.recalled, hv, Option.some_or] at hrecalled
    rw [hv, hrecalled]
  · intro hhas hnone
    rw [hhas] at hnone
    cases hnone

/-- What a piece of work that saves a cache leads to. -/
structure Advances (ix : Indexer σ) (origin home : Place) (texts : String → Prop)
    (f : String → Embedding) (kind : CacheKind) (saved : Cache) (d d' : Disk) : Prop where
  /-- the caches hold nothing but vectors of the texts in play -/
  current : ix.Current origin home texts f d'
  /-- the tree is the same -/
  tree : ix.SameTree origin home d d'
  /-- the other cache is as before -/
  other : ∀ kind', kind' ≠ kind → ix.store.load kind' d' = ix.store.load kind' d
  /-- the cache is reloaded -/
  reloads : saved.Reloads (ix.store.load kind d')

/-- What the embedder makes of items in play. -/
theorem madeOf_of_forall {items : List Item} (htexts : ∀ i ∈ items, texts i.text) :
    ∀ i ∈ items, ∀ v, some (f i.text) = some v → madeOf texts f i.text v :=
  fun i hi _ hv => ⟨htexts i hi, (Option.some.inj hv).symm⟩

/-- **Saving an honest cache** keeps the caches honest, whether it can be read again or not. -/
theorem Current.advance (hix : ix.Steady texts f) (h : ix.Current origin home texts f d)
    (kind : CacheKind) {c : Cache} (hc : c.Honest (madeOf texts f)) :
    ix.Advances origin home texts f kind c d (ix.savedCache kind c d) := by
  have hupdate := h.ready.update kind c
  have hlegible : c.Legible := hc.legible fun text v hv => hv.2 ▸ hix.legible text hv.1
  have hreloads : c.Reloads (ix.store.load kind (ix.savedCache kind c d)) := by
    rw [hupdate.loaded]
    exact hlegible.reloads
  refine ⟨⟨hupdate.ready, fun kind' => ?_⟩, hupdate.tree, hupdate.other, hreloads⟩
  by_cases hkind : kind' = kind
  · rw [hkind]
    exact hreloads.honest hc
  · rw [hupdate.other kind' hkind]
    exact h.honest kind'

/-! ## Builds -/

/-- Both indexes, one after the other, each of what is on the disk then. -/
def buildBoth (ix : Indexer σ) : Work σ EmbedError (FileIndex × IdentifierIndex) := do
  let w ← get
  let files ← ix.buildFiles (ix.collect w.disk)
  let w ← get
  let identifiers ← ix.buildIdentifiers (ix.collect w.disk)
  return (files, identifiers)

/-- The disk after both caches were saved, one after the other. -/
def savedCaches (ix : Indexer σ) (saved : CacheKind → Cache) (d : Disk) : Disk :=
  ix.savedCache .identifiers (saved .identifiers) (ix.savedCache .files (saved .files) d)

/-- The indexes have all of a corpus, with the vectors of the texts. -/
structure Indexes (f : String → Embedding) (c : Corpus) (index : FileIndex × IdentifierIndex) :
    Prop where
  /-- the documents -/
  documents : index.1.entries = c.documents.map fun document => (document, f document.embeddingText)
  /-- the identifiers -/
  identifiers : index.2.entries = c.identifiers.map fun i => (i, f i.text)
  /-- the sources -/
  sources : index.2.sources = c.sources

/-- What one build of an index leads to, when `items` are indexed. -/
structure Builds (ix : Indexer σ) (origin home : Place) (texts : String → Prop)
    (f : String → Embedding) (kind : CacheKind) (items : List Item) (saved : Cache)
    (stats : BuildStats) (d d' : Disk) : Prop where
  /-- a cache is saved -/
  disk : d' = ix.savedCache kind saved d
  /-- the caches hold nothing but vectors of the texts in play -/
  advances : ix.Advances origin home texts f kind saved d d'
  /-- and neither does the one that is saved -/
  honest : saved.Honest (madeOf texts f)
  /-- it has all items -/
  has : ∀ i ∈ items, saved.Has f i
  /-- what the cache missed before is counted -/
  counted : Counted (ix.store.load kind d) items stats

/-- A pass saves a cache that has all items, when their keys are different and wanted. -/
theorem Current.pass (hix : ix.Steady texts f) (h : ix.Current origin home texts f d)
    (kind : CacheKind) {items : List Item} (wanted : String → Bool)
    (htexts : ∀ i ∈ items, texts i.text) (hkeyed : Cache.Keyed items)
    (hwanted : ∀ i ∈ items, wanted i.key = true) {stats : BuildStats}
    (hembedded : stats.embedded =
      (ix.passFilled (fun text => some (f text)) kind items d).embedded)
    (hhits : stats.cacheHits = (ix.passFilled (fun text => some (f text)) kind items d).hits) :
    ∃ saved, ((ix.passFilled (fun text => some (f text)) kind items d).cache.prune wanted).2 =
      saved ∧
      ix.Builds origin home texts f kind items saved stats d (ix.savedCache kind saved d) := by
  have hfilled : (ix.passFilled (fun text => some (f text)) kind items d).cache.Honest
      (madeOf texts f) := (h.honest kind).filled (madeOf_of_forall htexts)
  refine ⟨_, rfl, rfl, h.advance hix kind (hfilled.prune wanted), hfilled.prune wanted,
    fun i hi => ?_, Cache.counted_filled _ items hembedded hhits⟩
  have hpruned := Cache.getElem?_prune
    (ix.passFilled (fun text => some (f text)) kind items d).cache wanted i.key
  rw [if_pos (hwanted i hi)] at hpruned
  rw [Cache.Has, Cache.vector?_congr hpruned, passFilled,
    Cache.vector?_learnAll hi fun j hj hkey => hkeyed j hj i hi hkey]
  exact hix.recalled_eq (h.honest kind) (htexts i hi)

/-- Everything gets the vector of its text. -/
theorem Steady.entriesOf_recalled (hix : ix.Steady texts f) {c : Cache}
    (hc : c.Honest (madeOf texts f)) {α : Type} (item : α → Item) {things : List α}
    (hthings : ∀ i ∈ things.map item, texts i.text) :
    entriesOf (fun thing => c.recalled (fun text => some (f text)) (item thing)) things =
      things.map fun thing => (thing, f (item thing).text) := by
  have hsome : entriesOf (fun thing => some (f (item thing).text)) things =
      things.map fun thing => (thing, f (item thing).text) :=
    congrFun List.filterMap_eq_map things
  rw [← hsome]
  refine entriesOf_eq_iff.mpr fun thing hthing => ?_
  exact hix.recalled_eq hc (hthings _ (List.mem_map_of_mem hthing))

/-- A build of the file index, when no two files have one path. -/
theorem Current.buildFiles (hix : ix.Steady texts f) {w : World σ}
    (h : ix.Current origin home texts f w.disk) {c : Corpus}
    (htexts : ∀ i ∈ c.fileItems, texts i.text) (hkeyed : Cache.Keyed c.fileItems) :
    ∃ index w' saved, ix.buildFiles c w = .ok index w' ∧
      ix.Builds origin home texts f .files c.fileItems saved index.stats w.disk w'.disk ∧
      index.entries = c.documents.map fun document => (document, f document.embeddingText) := by
  obtain ⟨index, s, hbuild, hentries, hembedded, hhits⟩ :=
    buildFiles_eq (hix.answers.gives ix.batching) c w
  obtain ⟨saved, hsaved, hbuilds⟩ :=
    h.pass hix .files c.keepsFile htexts hkeyed (fun i hi => by
      obtain ⟨document, hdocument, rfl⟩ := List.mem_map.mp hi
      exact keepsFile_key hdocument) hembedded hhits
  rw [hsaved] at hbuild
  refine ⟨index, _, saved, hbuild, hbuilds, ?_⟩
  rw [hentries]
  exact hix.entriesOf_recalled (h.honest .files) Document.item htexts

/-- A build of the identifier index, when no two identifiers have one id. -/
theorem Current.buildIdentifiers (hix : ix.Steady texts f) {w : World σ}
    (h : ix.Current origin home texts f w.disk) {c : Corpus}
    (htexts : ∀ i ∈ c.identifierItems, texts i.text)
    (hids : (c.identifiers.map Identifier.id).Nodup) :
    ∃ index w' saved, ix.buildIdentifiers c w = .ok index w' ∧
      ix.Builds origin home texts f .identifiers c.identifierItems saved index.stats w.disk
        w'.disk ∧
      index.entries = c.identifiers.map (fun i => (i, f i.text)) ∧ index.sources = c.sources := by
  obtain ⟨index, s, hbuild, hentries, hsources, hembedded, hhits⟩ :=
    buildIdentifiers_eq (hix.answers.gives ix.batching) c w
  obtain ⟨saved, hsaved, hbuilds⟩ := h.pass hix .identifiers c.keepsIdentifier
    htexts (keyed_identifierItems hids) (fun i hi => by
      obtain ⟨identifier, hidentifier, rfl⟩ := List.mem_map.mp hi
      exact keepsIdentifier_key hidentifier) hembedded hhits
  rw [hsaved] at hbuild
  refine ⟨index, _, saved, hbuild, hbuilds, ?_, hsources⟩
  rw [hentries]
  exact hix.entriesOf_recalled (h.honest .identifiers) Identifier.item htexts

/-- Building both indexes is building the one and then the other. -/
theorem buildBoth_apply {w w' w'' : World σ} {files : FileIndex} {identifiers : IdentifierIndex}
    (hfiles : ix.buildFiles (ix.collect w.disk) w = .ok files w')
    (hidentifiers : ix.buildIdentifiers (ix.collect w'.disk) w' = .ok identifiers w'') :
    ix.buildBoth w = .ok (files, identifiers) w'' := by
  have hwork : ix.buildBoth w = (ix.buildFiles (ix.collect w.disk) >>= fun files w' =>
      (ix.buildIdentifiers (ix.collect w'.disk) >>= fun identifiers => pure (files, identifiers))
        w') w := rfl
  rw [hwork]
  simp only [bind, EStateM.bind, hfiles, hidentifiers, pure, EStateM.pure]

/-- What a build of both indexes leads to. -/
structure BuildsBoth (ix : Indexer σ) (origin home : Place) (texts : String → Prop)
    (f : String → Embedding) (saved : CacheKind → Cache) (index : FileIndex × IdentifierIndex)
    (d d' : Disk) : Prop where
  /-- both caches are saved -/
  disk : d' = ix.savedCaches saved d
  /-- the caches hold nothing but vectors of the texts in play -/
  current : ix.Current origin home texts f d'
  /-- the tree is the same -/
  tree : ix.SameTree origin home d d'
  /-- the caches are reloaded -/
  reloads : ∀ kind, (saved kind).Reloads (ix.store.load kind d')
  /-- what was saved holds nothing but vectors of the texts in play -/
  honest : ∀ kind, (saved kind).Honest (madeOf texts f)
  /-- it has everything in the tree -/
  has : ∀ kind, ∀ i ∈ (ix.collect d).items kind, (saved kind).Has f i
  /-- everything in the tree is indexed -/
  indexes : Indexes f (ix.collect d) index
  /-- what the caches missed before is counted -/
  counted : ∀ kind, Counted (ix.store.load kind d) ((ix.collect d).items kind) (statsOf index kind)

/-- **A build of both indexes** succeeds, gives everything in the tree its vector, and saves caches
that have everything. -/
theorem Current.buildBoth (hix : ix.Steady texts f) {w : World σ}
    (h : ix.Current origin home texts f w.disk)
    (htexts : ∀ kind, ∀ i ∈ (ix.collect w.disk).items kind, texts i.text)
    (hids : ((ix.collect w.disk).identifiers.map Identifier.id).Nodup) :
    ∃ index w' saved, ix.buildBoth w = .ok index w' ∧
      ix.BuildsBoth origin home texts f saved index w.disk w'.disk := by
  obtain ⟨files, w', m, hfiles, hfirst, hdocuments⟩ :=
    h.buildFiles hix (htexts .files) (keyed_fileItems h.ready.rooted h.ready.unseen)
  have hcollect := h.ready.collect_eq hfirst.advances.current.ready hfirst.advances.tree
  obtain ⟨identifiers, w'', m', hidentifiers, hsecond, hentries, hsources⟩ :=
    hfirst.advances.current.buildIdentifiers hix (htexts .identifiers) hids
  -- each build leaves the cache of the other as it was
  have hother : ix.store.load .files w''.disk = ix.store.load .files w'.disk :=
    hsecond.advances.other .files nofun
  have hother' : ix.store.load .identifiers w'.disk = ix.store.load .identifiers w.disk :=
    hfirst.advances.other .identifiers nofun
  refine ⟨(files, identifiers), w'', CacheKind.select m m',
    buildBoth_apply hfiles (hcollect.symm ▸ hidentifiers),
    ?_, hsecond.advances.current, hfirst.advances.tree.trans hsecond.advances.tree, ?_, ?_, ?_,
    ⟨hdocuments, hentries, hsources⟩, ?_⟩
  · rw [hsecond.disk, hfirst.disk]
    rfl
  all_goals intro kind; cases kind
  · rw [hother]
    exact hfirst.advances.reloads
  · exact hsecond.advances.reloads
  · exact hfirst.honest
  · exact hsecond.honest
  · exact hfirst.has
  · exact hsecond.has
  · exact hfirst.counted
  · exact hother' ▸ hsecond.counted

end Indexer

end CodeAtlas
