import CodeAtlas.Ignore.Rules
import CodeAtlas.Proofs.Index.Build

/-!
# Caches that others left

Setup: the caches on a disk are older than the build that reads them. Builds, refreshes and searches
for call sites wrote them, with whatever model was in use at the time, while files came and went.
`Past` are the disks that such work leaves.

A cache entry tells the hash of a text, but not the model that made the vector. So a build is right
about a thing exactly when what the cache has of it is what the present model makes of it:
**`Indexer.build_eq_cold_iff`**. What the cache has was made from the very text (that is what the
hashes are for), so a build is right whenever the models agree on the texts that are indexed;
nothing else that happened in the past matters.
-/

namespace CodeAtlas

open CodeAtlas.Fingerprint (contentHash)
open CodeAtlas.Path (IsName)

variable {σ : Type}

/-! ## Work that keeps something true of the disk -/

/-- The disk after a piece of work, whether it succeeds or fails. -/
def Work.diskAfter {ε α : Type} (m : Work σ ε α) (w : World σ) : Disk :=
  match m w with
  | .ok _ w => w.disk
  | .error _ w => w.disk

/-- The work keeps a property of the disk, whether it succeeds or fails. -/
def Work.Keeps {ε α : Type} (P : Disk → Prop) (m : Work σ ε α) : Prop :=
  ∀ w : World σ, P w.disk → P (m.diskAfter w)

/-- Work that gives a different value does the same to the disk. -/
theorem Work.diskAfter_map {ε α β : Type} (f : α → β) (m : Work σ ε α) (w : World σ) :
    Work.diskAfter (f <$> m) w = m.diskAfter w := by
  simp only [Work.diskAfter, Functor.map, EStateM.map]
  cases m w <;> rfl

/-- Work done after other work. -/
theorem Work.Keeps.bind {ε α β : Type} {P : Disk → Prop} {m : Work σ ε α} {f : α → Work σ ε β}
    (h : Work.Keeps P m) (hf : ∀ a, Work.Keeps P (f a)) : Work.Keeps P (m >>= f) := by
  intro w hw
  have hm := h w hw
  simp only [Work.diskAfter, Bind.bind, EStateM.bind] at hm ⊢
  cases hcase : m w with
  | ok a w' =>
    rw [hcase] at hm
    exact hf a w' hm
  | error e w' =>
    rw [hcase] at hm
    exact hm

/-- Giving a value does nothing. -/
theorem Work.Keeps.pure {ε α : Type} {P : Disk → Prop} (a : α) :
    Work.Keeps P (Pure.pure a : Work σ ε α) :=
  fun _ hw => hw

/-! ## Earlier work -/

/-- Work that reads and writes caches. -/
inductive Chore where
  /-- the build of a file index from some corpus -/
  | files (corpus : Corpus)
  /-- the build of an identifier index from some corpus -/
  | identifiers (corpus : Corpus)
  /-- the search for call sites, given by path, line and text -/
  | uses (uses : List (String × Nat × String))
  /-- the refresh of the files of some names -/
  | refresh (names : List String)

/-- A chore as an indexer does it. -/
def Indexer.perform (ix : Indexer σ) : Chore → Work σ EmbedError Unit
  | .files corpus => (fun _ => ()) <$> ix.buildFiles corpus
  | .identifiers corpus => (fun _ => ()) <$> ix.buildIdentifiers corpus
  | .uses uses => (fun _ => ()) <$> ix.embedUses uses
  | .refresh names => (fun _ => ()) <$> ix.refresh names

/-- The texts that a chore may have embedded, on some disk. -/
def Indexer.asked (ix : Indexer σ) (d : Disk) : Chore → List String
  | .files corpus => corpus.fileItems.map Item.text
  | .identifiers corpus => corpus.identifierItems.map Item.text
  | .uses uses => uses.map fun (_, _, text) => text
  | .refresh names =>
    (ix.changes d names).files.map Item.text ++ (ix.changes d names).identifiers.map Item.text

/-- The disks that earlier work may leave, when the vectors that it made are `made`. Chores are done
by any indexer that keeps its caches in the same directory, whatever model it uses; they succeed or
fail. In between anything may happen to the disk that leaves each cache as it was or removes it. -/
inductive Past (store : CacheStore) (home : Place) (made : String → Embedding → Prop) :
    Disk → Prop where
  /-- nothing is cached yet -/
  | blank {d d' : Disk} (opens : store.Opens d d' home)
      (empty : ∀ kind, (store.load kind d).isEmpty = true) : Past store home made d
  /-- the disk was changed by others -/
  | edited {d d' d'' : Disk} (past : Past store home made d) (opens : store.Opens d' d'' home)
      (kept : ∀ kind, store.load kind d' = store.load kind d ∨
      (store.load kind d').isEmpty = true) :
      Past store home made d'
  /-- a chore was done -/
  | worked {τ : Type} {d : Disk} (past : Past store home made d) (ix : Indexer τ) (memory : τ)
      (chore : Chore) (same : ix.store = store)
      (makes : ix.batching.Makes ix.provider (ix.asked d chore) made) :
      Past store home made ((ix.perform chore).diskAfter ⟨d, memory⟩)

/-- There is room for the caches, and they are honest. -/
structure CacheStore.Trusty (s : CacheStore) (home : Place) (made : String → Embedding → Prop)
    (d : Disk) : Prop where
  /-- the caches are settled once their directory is made -/
  opens : ∃ d', s.Opens d d' home
  /-- each entry was made from a text that has its hash -/
  honest : ∀ kind, (s.load kind d).Honest made

section Trusty

variable {ix : Indexer σ} {home : Place} {made : String → Embedding → Prop}

/-- Saving an honest cache keeps the caches honest. -/
theorem CacheStore.Trusty.savedCache (hstorable : ∀ text v, made text v → v.Storable) {d : Disk}
    (h : ix.store.Trusty home made d) (kind : CacheKind) {c : Cache} (hc : c.Honest made) :
    ix.store.Trusty home made (ix.savedCache kind c d) := by
  obtain ⟨d', hopens⟩ := h.opens
  obtain ⟨d'', hsave, hsaved⟩ := hopens.save kind (hc.storable hstorable)
  have hdisk : ix.savedCache kind c d = d'' := by rw [Indexer.savedCache, hsave]
  rw [hdisk]
  refine ⟨⟨d'', hsaved.settled.opens⟩, fun kind' => ?_⟩
  by_cases hkind : kind' = kind
  · rw [hkind]
    exact hc.congr hsaved.loaded
  · rw [hsaved.other kind' hkind, hopens.loads]
    exact h.honest kind'

/-- A pass keeps the caches honest. -/
theorem keeps_pass (hstorable : ∀ text v, made text v → v.Storable) {items : List Item}
    (hmakes : ix.batching.Makes ix.provider (items.map Item.text) made) (kind : CacheKind)
    (wanted : String → Bool) :
    Work.Keeps (ix.store.Trusty home made) (ix.pass kind items wanted) := by
  intro w hw
  rw [Work.diskAfter]
  rcases ix.pass_cases kind items wanted w with ⟨filled, s, hfill, hpass⟩ | ⟨e, s, hpass⟩
  · rw [hpass]
    exact hw.savedCache hstorable kind (((hw.honest kind).fill hmakes hfill).prune wanted)
  · rw [hpass]
    exact hw

/-- The refresh of one cache keeps the caches honest. -/
theorem keeps_refreshCache (hstorable : ∀ text v, made text v → v.Storable) {items : List Item}
    (hmakes : ix.batching.Makes ix.provider (items.map Item.text) made) (kind : CacheKind)
    (removed : List String) :
    Work.Keeps (ix.store.Trusty home made) (ix.refreshCache kind removed items) := by
  intro w hw
  rw [Work.diskAfter]
  rcases ix.refreshCache_cases kind removed items w with ⟨filled, s, hfill, hrefresh⟩ |
    ⟨e, s, hrefresh⟩
  · rw [hrefresh]
    exact hw.savedCache hstorable kind (((hw.honest kind).prune _).fill hmakes hfill)
  · rw [hrefresh]
    exact hw

/-- A refresh is the refresh of the one cache and then of the other. -/
theorem Indexer.refresh_apply (ix : Indexer σ) (names : List String) (w : World σ) :
    ix.refresh names w =
      (ix.refreshCache .files (ix.changes w.disk names).removed (ix.changes w.disk names).files >>=
        fun files => ix.refreshCache .identifiers (ix.changes w.disk names).removed
          (ix.changes w.disk names).identifiers >>= fun identifiers =>
            pure ⟨(ix.changes w.disk names).files.length, files.1 + identifiers.1,
              files.2 + identifiers.2⟩) w :=
  rfl

/-- **A chore keeps the caches honest**: a case for each kind of chore, all of them made of passes.
-/
theorem trusty_perform (hstorable : ∀ text v, made text v → v.Storable) {chore : Chore}
    {w : World σ} (hmakes : ix.batching.Makes ix.provider (ix.asked w.disk chore) made)
    (hw : ix.store.Trusty home made w.disk) :
    ix.store.Trusty home made ((ix.perform chore).diskAfter w) := by
  cases chore with
  | files corpus =>
    rw [Indexer.perform, Indexer.buildFiles_eq_map, Work.diskAfter_map, Work.diskAfter_map]
    exact keeps_pass hstorable hmakes _ _ w hw
  | identifiers corpus =>
    rw [Indexer.perform, Indexer.buildIdentifiers_eq_map, Work.diskAfter_map, Work.diskAfter_map]
    exact keeps_pass hstorable hmakes _ _ w hw
  | uses uses =>
    rw [Indexer.perform, Work.diskAfter_map]
    refine ((keeps_pass hstorable ?_ _ _).bind fun _ => .pure _) w hw
    rw [List.map_map]
    exact hmakes
  | refresh names =>
    have hfiles :
        ix.batching.Makes ix.provider ((ix.changes w.disk names).files.map Item.text) made :=
      fun texts htexts => hmakes texts fun _ ht => List.mem_append_left _ (htexts ht)
    have hidentifiers : ix.batching.Makes ix.provider
        ((ix.changes w.disk names).identifiers.map Item.text) made :=
      fun texts htexts => hmakes texts fun _ ht => List.mem_append_right _ (htexts ht)
    -- what is refreshed was read before either cache was saved
    rw [Indexer.perform, Work.diskAfter_map, Work.diskAfter, Indexer.refresh_apply]
    exact ((keeps_refreshCache hstorable hfiles _ _).bind fun _ =>
      (keeps_refreshCache hstorable hidentifiers _ _).bind fun _ => .pure _) w hw

/-- **Whatever happened before, the caches are honest.** -/
theorem Past.trusty (hstorable : ∀ text v, made text v → v.Storable) {store : CacheStore} {d : Disk}
    (h : Past store home made d) : store.Trusty home made d := by
  induction h with
  | blank opens empty => exact ⟨⟨_, opens⟩, fun kind => .of_isEmpty (empty kind)⟩
  | edited _ opens kept ih =>
    refine ⟨⟨_, opens⟩, fun kind => ?_⟩
    rcases kept kind with hsame | hgone
    · rw [hsame]
      exact ih.honest kind
    · exact .of_isEmpty hgone
  | worked _ ix memory chore same makes ih =>
    subst same
    exact trusty_perform hstorable makes ih

end Trusty

/-! ## Builds with old caches -/

namespace Indexer

variable {ix : Indexer σ} {home : Place} {made : String → Embedding → Prop}
  {g : String → Option Embedding}

/-- Whatever the cache on the disk has of the items is what the model makes of their texts. -/
def Agrees (ix : Indexer σ) (g : String → Option Embedding) (kind : CacheKind) (d : Disk)
    (items : List Item) : Prop :=
  ∀ i ∈ items, ∀ v, (ix.store.load kind d).vector? i.key i.hash = some v → g i.text = some v

/-- A lookup changes what an item gets only when it finds something else than the model makes. -/
theorem recalled_eq_iff {c : Cache} {i : Item} :
    c.recalled g i = g i.text ↔ ∀ v, c.vector? i.key i.hash = some v → g i.text = some v := by
  rw [Cache.recalled]
  cases c.vector? i.key i.hash with
  | none => simp
  | some v =>
    constructor
    · rintro heq v' hv'
      rw [← heq, hv']
      rfl
    · intro h
      exact (h v rfl).symm

/-- With an empty cache an item gets what the model makes of its text. -/
theorem recalled_of_isEmpty {c : Cache} (h : c.isEmpty = true) (i : Item) :
    c.recalled g i = g i.text := by
  rw [Cache.recalled, Cache.vector?_of_isEmpty h]
  rfl

/-- Things get the same from an old cache and from an empty one exactly when the old one agrees with
the model. -/
theorem entriesOf_recalled_eq_iff {α : Type} (item : α → Item) {things : List α} {kind : CacheKind}
    {d cold : Disk} (hcold : (ix.store.load kind cold).isEmpty = true) :
    entriesOf (fun thing => (ix.store.load kind d).recalled g (item thing)) things =
        entriesOf (fun thing => (ix.store.load kind cold).recalled g (item thing)) things ↔
      ix.Agrees g kind d (things.map item) := by
  rw [entriesOf_eq_iff, Agrees, List.forall_mem_map]
  refine forall₂_congr fun thing _ => ?_
  rw [recalled_of_isEmpty hcold, recalled_eq_iff]

/-- **When a build with old caches is right.** The caches on the disk of `w` were left by any
earlier work; on the disk of `cold` there are none. Builds from one corpus succeed on both, and give
the same vectors exactly when the old caches agree with the present model. They agree when the
present model makes of the texts that are indexed what was made of them before. -/
theorem build_eq_cold_iff (hg : ix.batching.Gives ix.provider g)
    (hstorable : ∀ text v, made text v → v.Storable) (w cold : World σ)
    (hpast : Past ix.store home made w.disk)
    (hcold : ∀ kind, (ix.store.load kind cold.disk).isEmpty = true) (c : Corpus)
    (hhash : ∀ i ∈ c.fileItems ++ c.identifierItems, ∀ text v, made text v →
      contentHash text = i.hash → text = i.text) :
    ∃ files filesCold identifiers identifiersCold w₁ w₂ w₃ w₄,
      ix.buildFiles c w = .ok files w₁ ∧ ix.buildFiles c cold = .ok filesCold w₂ ∧
      ix.buildIdentifiers c w = .ok identifiers w₃ ∧
      ix.buildIdentifiers c cold = .ok identifiersCold w₄ ∧
      (files.entries = filesCold.entries ↔ ix.Agrees g .files w.disk c.fileItems) ∧
      (identifiers.entries = identifiersCold.entries ↔
        ix.Agrees g .identifiers w.disk c.identifierItems) ∧
      ((∀ i ∈ c.fileItems, ∀ v, made i.text v → g i.text = some v) →
        files.entries = filesCold.entries) ∧
      ((∀ i ∈ c.identifierItems, ∀ v, made i.text v → g i.text = some v) →
        identifiers.entries = identifiersCold.entries) := by
  obtain ⟨files, _, hfiles, hentries, -, -⟩ := buildFiles_eq hg c w
  obtain ⟨filesCold, _, hfilesCold, hentriesCold, -, -⟩ := buildFiles_eq hg c cold
  obtain ⟨identifiers, _, hids, hidEntries, -, -, -⟩ := buildIdentifiers_eq hg c w
  obtain ⟨identifiersCold, _, hidsCold, hidEntriesCold, -, -, -⟩ := buildIdentifiers_eq hg c cold
  have hfilesIff : files.entries = filesCold.entries ↔ ix.Agrees g .files w.disk c.fileItems := by
    rw [hentries, hentriesCold]
    exact entriesOf_recalled_eq_iff Document.item (hcold .files)
  have hidsIff : identifiers.entries = identifiersCold.entries ↔
      ix.Agrees g .identifiers w.disk c.identifierItems := by
    rw [hidEntries, hidEntriesCold]
    exact entriesOf_recalled_eq_iff Identifier.item (hcold .identifiers)
  have hhonest := (hpast.trusty hstorable).honest
  refine ⟨files, filesCold, identifiers, identifiersCold, _, _, _, _, hfiles, hfilesCold, hids,
    hidsCold, hfilesIff, hidsIff, fun hmade => hfilesIff.mpr fun i hi v hv => ?_,
    fun hmade => hidsIff.mpr fun i hi v hv => ?_⟩
  · exact hmade i hi v
      ((hhonest .files).made_of_vector? (hhash i (List.mem_append_left _ hi)) hv)
  · exact hmade i hi v
      ((hhonest .identifiers).made_of_vector? (hhash i (List.mem_append_right _ hi)) hv)

end Indexer

/-! ## A change of model

Two models that each know a single vector share one directory for their caches. -/

/-- A provider that gives each text its vector. -/
def Provider.giving (f : String → Embedding) : Provider Unit Embedding where
  name := "giving"
  embed texts s := (.ok (texts.map f), s)

/-- It has no memory and refuses nothing. -/
theorem Provider.stateless_giving (f : String → Embedding) :
    (Provider.giving f).Stateless (fun _ => true) f where
  accepted _ _ _ := rfl
  refused _ _ h := nomatch h
  single _ _ _ _ := rfl

/-- A batch gets the vector of each of its texts. -/
theorem Provider.gives_giving (f : String → Embedding) (b : Batching) :
    b.Gives (Provider.giving f) fun text => some (f text) :=
  (Provider.stateless_giving f).gives b

/-- A vector of one component is storable when its decimal is read back. -/
theorem Embedding.storable_singleton {x : Float32} (l : Json.Literal)
    (hl : Json.Literal.ofFloat32? x = some l) (hread : l.float32? = some x) :
    Embedding.Storable #[x] := by
  intro y hy
  obtain rfl : y = x := by simpa using hy
  exact ⟨l, hl, Json.Literal.wellFormed_ofFloat32? hl, hread⟩

theorem Embedding.storable_one : Embedding.Storable #[1.0] :=
  storable_singleton ⟨false, ['1'], some ['0'], none⟩ (by decide +kernel) (by decide +kernel)

theorem Embedding.storable_two : Embedding.Storable #[2.0] :=
  storable_singleton ⟨false, ['2'], some ['0'], none⟩ (by decide +kernel) (by decide +kernel)

/-- A disk with a directory for caches, and nothing else. -/
def cachesOnly : Disk :=
  Disk.empty.put ["caches"] .directory

/-- An indexer that keeps its caches there and gives each text its vector. -/
def givingIndexer (f : String → Embedding) : Indexer Unit where
  root := ⟨"/repo", [], []⟩
  rules := Ignore.skipRules
  parser := fun _ _ => some default
  provider := .giving f
  batching := ⟨1, ⟨0.5, 1⟩, Nat.one_pos⟩
  store := ⟨"/caches"⟩
  documentChars := 100
  fileBytes := 1000

/-- An indexer that gives every text the same vector. -/
def constantIndexer (v : Embedding) : Indexer Unit :=
  givingIndexer fun _ => v

/-- A corpus of one text file. -/
def oneNote : Corpus :=
  { documents := [⟨"notes.md", "", [], [], "note"⟩]
    identifiers := []
    sources := ∅
    scanned := 1
    skipped := 0 }

/-- Its item. -/
def noteItem : Item := ⟨"notes.md", "notes.md\nnote"⟩

theorem fileItems_oneNote : oneNote.fileItems = [noteItem] := by decide

/-- The directory is ready for caches. -/
theorem settled_cachesOnly (v : Embedding) :
    (constantIndexer v).store.Settled cachesOnly ["caches"] := by
  have hname : IsName "caches" := ⟨by decide, by decide, by decide, by decide⟩
  have hlookup := Disk.lookup_put (d := Disk.empty) (List.cons_ne_nil "caches" []) .directory
  have hhome : cachesOnly.lookup ["caches"] = some .directory := by
    rw [cachesOnly, hlookup, if_pos rfl]
  refine ⟨Disk.sound_empty.put [] (Disk.lookup_empty []) hname (Disk.lookup_empty _) _, ?_,
    hhome, ?_⟩
  · have hparts : Text.splitOn '/' (constantIndexer v).store.directory = ["", "caches"] := by
      show Text.splitOn '/' "/caches" = ["", "caches"]
      decide
    rw [Disk.locate_iff_leads, hparts]
    refine .idle rfl (.inl rfl) (.enter rfl ?_ ?_ ?_ .arrive)
    · decide
    · decide
    · intro target htarget
      rw [List.nil_append, hhome] at htarget
      cases htarget
  · rintro place ⟨kind, rfl | rfl⟩ <;>
      simp [cachesOnly, hlookup, Disk.lookup_empty, Disk.Dead]

/-- Nothing is cached there. -/
theorem isEmpty_load_cachesOnly (v : Embedding) (kind : CacheKind) :
    ((constantIndexer v).store.load kind cachesOnly).isEmpty = true := by
  rw [(settled_cachesOnly v).load_eq, cachesOnly, Disk.lookup_put (List.cons_ne_nil "caches" []),
    if_neg (by simp), Disk.lookup_empty, if_neg (by simp)]
  rfl

/-- The disk after a build with the first model. -/
def afterFirst : Disk :=
  ((constantIndexer #[1.0]).perform (.files oneNote)).diskAfter ⟨cachesOnly, ()⟩

/-- What the first model made. -/
def madeFirst (text : String) (v : Embedding) : Prop :=
  text = noteItem.text ∧ v = #[1.0]

/-- The first build is a past. -/
theorem past_afterFirst (v : Embedding) :
    Past (constantIndexer v).store ["caches"] madeFirst afterFirst := by
  refine .worked (.blank (settled_cachesOnly v).opens (isEmpty_load_cachesOnly v)) _ _ _ rfl ?_
  intro texts hasked s answers s' hanswers text v' hmem
  obtain ⟨hin, hv⟩ := (Provider.gives_giving (fun _ => #[1.0]) _).makes _ texts hasked s answers s'
    hanswers text v' hmem
  rw [Indexer.asked, fileItems_oneNote] at hin
  exact ⟨List.mem_singleton.mp hin, (Option.some.inj hv).symm⟩

/-- The first model's vector of the note is in the cache. -/
theorem vector?_afterFirst (v : Embedding) :
    ((constantIndexer v).store.load .files afterFirst).vector? noteItem.key noteItem.hash =
      some #[1.0] := by
  have hg := Provider.gives_giving (fun _ => #[1.0]) (constantIndexer #[1.0]).batching
  have hempty := isEmpty_load_cachesOnly #[1.0] .files
  obtain ⟨index, s, hbuild, -⟩ := Indexer.buildFiles_eq hg oneNote ⟨cachesOnly, ()⟩
  have hhonest :
      ((constantIndexer #[1.0]).passFilled (fun _ => some #[1.0]) .files oneNote.fileItems
      cachesOnly).cache.Honest fun _ v => v = #[1.0] :=
    Cache.Honest.filled (.of_isEmpty hempty) fun _ _ _ hv => (Option.some.inj hv).symm
  have hsaved := Indexer.saved_savedCache .files (settled_cachesOnly #[1.0]).opens
    ((hhonest.prune oneNote.keepsFile).storable fun _ _ hv => hv ▸ Embedding.storable_one)
  have hkeyed : Cache.Keyed oneNote.fileItems := by
    rw [fileItems_oneNote]
    intro i hi j hj _
    rw [List.mem_singleton.mp hi, List.mem_singleton.mp hj]
  have hfound := Indexer.vector?_load_of_saved hkeyed hsaved.loaded
    (by rw [fileItems_oneNote]; exact List.mem_cons_self)
    (show oneNote.keepsFile noteItem.key = true by decide)
  rw [Indexer.recalled_of_isEmpty hempty] at hfound
  rw [afterFirst, Indexer.perform, Work.diskAfter_map, Work.diskAfter, hbuild]
  exact hfound

/-- A build with the second model after one with the first gives the note the vector of the first; a
build without caches gives it the vector of the second. -/
theorem Indexer.build_eq_cold_iff_switch : ∃ files filesCold w₁ w₂,
    (constantIndexer #[2.0]).buildFiles oneNote ⟨afterFirst, ()⟩ = .ok files w₁ ∧
      (constantIndexer #[2.0]).buildFiles oneNote ⟨cachesOnly, ()⟩ = .ok filesCold w₂ ∧
      files.entries ≠ filesCold.entries := by
  have hstorable : ∀ text v, madeFirst text v → v.Storable := by
    rintro text v ⟨-, rfl⟩
    exact Embedding.storable_one
  have hhash : ∀ i ∈ oneNote.fileItems ++ oneNote.identifierItems, ∀ text v, madeFirst text v →
      contentHash text = i.hash → text = i.text := by
    rintro i hi text v ⟨htext, -⟩ -
    rw [fileItems_oneNote] at hi
    obtain rfl : i = noteItem := List.mem_singleton.mp hi
    exact htext
  obtain ⟨files, filesCold, -, -, w₁, w₂, -, -, hfiles, hfilesCold, -, -, hiff, -, -, -⟩ :=
    build_eq_cold_iff (Provider.gives_giving (fun _ => #[2.0]) _) hstorable ⟨afterFirst, ()⟩
      ⟨cachesOnly, ()⟩ (past_afterFirst #[2.0]) (isEmpty_load_cachesOnly #[2.0]) oneNote hhash
  refine ⟨files, filesCold, w₁, w₂, hfiles, hfilesCold, fun heq => ?_⟩
  have hsame := hiff.mp heq noteItem (by rw [fileItems_oneNote]; exact List.mem_cons_self) #[1.0]
    (vector?_afterFirst #[2.0])
  exact absurd hsame (by decide +kernel)

end CodeAtlas
