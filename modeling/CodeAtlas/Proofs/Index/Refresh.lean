import CodeAtlas.Proofs.Index.Current

/-!
# Refreshing instead of building anew

Setup: a complete build saves caches that have the vector of everything in the tree. Then files are
edited (`Indexer.Edited`), and a refresh is told of them. What the refresh saves is followed file by
file (`Indexer.Edited.cases`): a file that the refresh is told of is filled in under its own keys;
every other file was in the tree before, and the refresh leaves its keys alone, whatever it drops
and fills in.

So a build of the edited tree gives what a build gives that starts with no caches, and it embeds
nothing but what was lost on the disk. A cache with a vector that is not finite is lost as a whole
when it is written, so a build after the refresh embeds nothing exactly when both the build and the
refresh wrote finite caches, or when the refresh was told of everything that was lost:
**`Indexer.buildBoth_after_refresh`**.
-/

namespace CodeAtlas

open CodeAtlas.Disk CodeAtlas.Ignore CodeAtlas.Path
open CodeAtlas.CacheStore (Owns)

variable {σ : Type} {ix : Indexer σ} {origin home : Place} {texts : String → Prop}
  {f : String → Embedding} {kind : CacheKind} {d d' : Disk}

/-! ## Refreshes -/

/-- The cache without the keys of some files. -/
def Cache.without (c : Cache) (removed : List String) : Cache :=
  (c.prune fun key => !removed.any (belongsTo key)).2

/-- What a refresh fills into each of the caches. -/
def Changes.items (c : Changes) (kind : CacheKind) : List Item :=
  kind.select c.files c.identifiers

namespace Indexer

/-- What a refresh of one cache fills in. -/
def refreshFilled (ix : Indexer σ) (g : String → Option Embedding) (kind : CacheKind)
    (removed : List String) (items : List Item) (d : Disk) : Filled :=
  ((ix.store.load kind d).without removed).filled items
    (((ix.store.load kind d).without removed).answersOf g items)

/-- With an embedder that always gives the same, the refresh of one cache succeeds. -/
theorem refreshCache_eq {g : String → Option Embedding} (hg : ix.batching.Gives ix.provider g)
    (kind : CacheKind) (removed : List String) (items : List Item) (w : World σ) :
    ∃ outcome s, ix.refreshCache kind removed items w = .ok outcome
      ⟨ix.savedCache kind (ix.refreshFilled g kind removed items w.disk).cache w.disk, s⟩ := by
  obtain ⟨s, hfill⟩ := Cache.fill_eq hg items ((ix.store.load kind w.disk).without removed) w.memory
  rw [Cache.without] at hfill
  refine ⟨(((ix.store.load kind w.disk).prune fun key => !removed.any (belongsTo key)).1,
    (ix.refreshFilled g kind removed items w.disk).embedded), s, ?_⟩
  simp only [refreshCache, bind, EStateM.bind, loadCache, fillCache, hfill, saveCache, pure,
    EStateM.pure]
  rfl

/-- What the refresh of one cache leads to. -/
structure Refreshes (ix : Indexer σ) (origin home : Place) (texts : String → Prop)
    (f : String → Embedding) (kind : CacheKind) (removed : List String) (items : List Item)
    (saved : Cache) (d d' : Disk) : Prop where
  /-- a cache is saved -/
  disk : d' = ix.savedCache kind saved d
  /-- the caches hold nothing but vectors of the texts in play -/
  advances : ix.Advances origin home texts f kind saved d d'
  /-- and neither does the one that is saved -/
  honest : saved.Honest (madeOf texts f)
  /-- it has what was filled in -/
  renewed : ∀ i, Renews items i → saved.Has f i
  /-- of what was spared it has what was there -/
  spared : ∀ i, Spares removed items i → (saved.Has f i ↔ (ix.store.load kind d).Has f i)

/-- **The refresh of one cache.** -/
theorem Current.refreshCache (hix : ix.Steady texts f) {w : World σ}
    (h : ix.Current origin home texts f w.disk) (kind : CacheKind) (removed : List String)
    {items : List Item} (htexts : ∀ i ∈ items, texts i.text) :
    ∃ outcome w' saved, ix.refreshCache kind removed items w = .ok outcome w' ∧
      ix.Refreshes origin home texts f kind removed items saved w.disk w'.disk := by
  obtain ⟨outcome, s, hrefresh⟩ :=
    refreshCache_eq (hix.answers.gives ix.batching) kind removed items w
  have hpruned : ((ix.store.load kind w.disk).without removed).Honest (madeOf texts f) :=
    (h.honest kind).prune _
  have hfilled :
      (ix.refreshFilled (fun text => some (f text)) kind removed items w.disk).cache.Honest
      (madeOf texts f) := hpruned.filled (madeOf_of_forall htexts)
  refine ⟨outcome, _, _, hrefresh, rfl, h.advance hix kind hfilled, hfilled, fun i hrenews => ?_,
    fun i hspares => ?_⟩
  · rw [Cache.Has, refreshFilled, Cache.vector?_learnAll hrenews.mem hrenews.only]
    exact hix.recalled_eq hpruned (htexts i hrenews.mem)
  -- what is spared belongs to no removed file, so it is not pruned either
  · have hwanted : (!removed.any (belongsTo i.key)) = true := by
      rw [Bool.not_eq_true', List.any_eq_false]
      exact fun name hname => by rw [hspares.removed name hname]; exact Bool.false_ne_true
    have hkept := Cache.getElem?_prune (ix.store.load kind w.disk)
      (fun key => !removed.any (belongsTo key)) i.key
    rw [if_pos hwanted] at hkept
    rw [Cache.Has, refreshFilled, Cache.vector?_learnAll_of_forall_ne hspares.filled, Cache.without,
      Cache.vector?_congr hkept, Cache.Has]

/-- What a refresh of both caches leads to. -/
structure RefreshesBoth (ix : Indexer σ) (origin home : Place) (texts : String → Prop)
    (f : String → Embedding) (changes : Changes) (saved : CacheKind → Cache) (d d' : Disk) :
    Prop where
  /-- both caches are saved -/
  disk : d' = ix.savedCaches saved d
  /-- the caches hold nothing but vectors of the texts in play -/
  current : ix.Current origin home texts f d'
  /-- the tree is the same -/
  tree : ix.SameTree origin home d d'
  /-- the caches are reloaded -/
  reloads : ∀ kind, (saved kind).Reloads (ix.store.load kind d')
  /-- what was saved holds nothing but vectors of the texts in play -/
  honest : ∀ kind, (saved kind).Honest (madeOf texts f)
  /-- it has what was filled in -/
  renewed : ∀ kind i, Renews (changes.items kind) i → (saved kind).Has f i
  /-- of what was spared it has what was there -/
  spared : ∀ kind i, Spares changes.removed (changes.items kind) i →
    ((saved kind).Has f i ↔ (ix.store.load kind d).Has f i)

/-- **A refresh** succeeds, and each cache that it saves has what survives. -/
theorem Current.refresh (hix : ix.Steady texts f) {w : World σ}
    (h : ix.Current origin home texts f w.disk) {rels : List String}
    (htexts : ∀ kind, ∀ i ∈ (ix.changes w.disk rels).items kind, texts i.text) :
    ∃ outcome w' saved, ix.refresh rels w = .ok outcome w' ∧
      ix.RefreshesBoth origin home texts f (ix.changes w.disk rels) saved w.disk w'.disk := by
  obtain ⟨files, w', m, hfiles, hfirst⟩ := h.refreshCache hix .files
    (ix.changes w.disk rels).removed (htexts .files)
  obtain ⟨identifiers, w'', m', hidentifiers, hsecond⟩ :=
    hfirst.advances.current.refreshCache hix .identifiers (ix.changes w.disk rels).removed
      (htexts .identifiers)
  have hother : ix.store.load .files w''.disk = ix.store.load .files w'.disk :=
    hsecond.advances.other .files nofun
  have hother' : ix.store.load .identifiers w'.disk = ix.store.load .identifiers w.disk :=
    hfirst.advances.other .identifiers nofun
  simp only [Changes.items, CacheKind.select] at hfiles hidentifiers
  refine ⟨⟨(ix.changes w.disk rels).files.length, files.1 + identifiers.1, files.2 + identifiers.2⟩,
    w'', CacheKind.select m m', ?_, ?_, hsecond.advances.current,
    hfirst.advances.tree.trans hsecond.advances.tree, ?_, ?_, ?_, ?_⟩
  · rw [refresh_apply]
    simp only [bind, EStateM.bind, hfiles, hidentifiers, pure, EStateM.pure]
  · rw [hsecond.disk, hfirst.disk]
    rfl
  all_goals intro kind; cases kind
  · rw [hother]
    exact hfirst.advances.reloads
  · exact hsecond.advances.reloads
  · exact hfirst.honest
  · exact hsecond.honest
  · exact hfirst.renewed
  · exact hsecond.renewed
  · exact hfirst.spared
  · exact hother' ▸ hsecond.spared

/-! ## Edits -/

/-- The tree was edited: below `origin` only files of the given names came, went or changed, the
verdict of the rules is the same, and so are the caches. -/
structure Edited (ix : Indexer σ) (origin : Place) (rels : List String) (d d' : Disk) : Prop where
  /-- every other file is as it was -/
  files : ∀ names, ofComponents names ∉ rels → ∀ bytes,
    d'.lookup (origin ++ names) = some (.file bytes) ↔
      d.lookup (origin ++ names) = some (.file bytes)
  /-- no ignore rules changed -/
  rules : ix.rules d' = ix.rules d
  /-- the caches are the same -/
  caches : ∀ kind, (ix.store.load kind d').Equiv (ix.store.load kind d)

/-- A file that a walk finds after the edit was there before, with the same in it, unless it was
edited. -/
theorem Edited.finds {rels : List String} (h : ix.Edited origin rels d d')
    (hready : ix.Ready origin home d) (hready' : ix.Ready origin home d') {names : List String}
    {bytes : ByteArray} (hfinds : d'.Finds (ix.rules d') ix.root origin names bytes)
    (hrel : ofComponents names ∉ rels) :
    d.Finds (ix.rules d) ix.root origin names bytes ∧ ix.readAt d' names = ix.readAt d names := by
  have hfile := (h.files names hrel bytes).mp hfinds.file
  refine ⟨⟨hfinds.ne_nil, hfile, h.rules ▸ hfinds.sees⟩, read_congr ?_⟩
  rw [hready.rooted.read_pathBelow hfile, hready'.rooted.read_pathBelow hfinds.file]

/-- A document of the edited tree is filled in, or it was in the tree before and is spared. -/
theorem Edited.document_cases {rels : List String} (h : ix.Edited origin rels d d')
    (hready : ix.Ready origin home d) (hready' : ix.Ready origin home d') {document : Document}
    (hdocument : document ∈ (ix.collect d').documents) :
    Renews (ix.changes d' rels).files document.item ∨
      Spares (ix.changes d' rels).removed (ix.changes d' rels).files document.item ∧
        document ∈ (ix.collect d).documents := by
  have hrooted := hready'.rooted
  have hunseen := hready'.unseen
  obtain ⟨names, bytes, hfinds, hread⟩ := (mem_documents hrooted hunseen).mp hdocument
  by_cases hrel : ofComponents names ∈ rels
  · exact .inl (renews_document hrooted hfinds hrel hread)
  · obtain ⟨hbefore, hsame⟩ := h.finds hready hready' hfinds hrel
    refine .inr ⟨spares_document hrooted hunseen hfinds hrel hread, ?_⟩
    rw [hsame] at hread
    exact (mem_documents hready.rooted hready.unseen).mpr ⟨names, bytes, hbefore, hread⟩

/-- An identifier of the edited tree is filled in, or it was in the tree before and is spared. -/
theorem Edited.identifier_cases {rels : List String} (h : ix.Edited origin rels d d')
    (hready : ix.Ready origin home d) (hready' : ix.Ready origin home d')
    (hcolon : ∀ name ∈ rels, ':' ∉ name.toList)
    (hids : ((ix.collect d').identifiers.map Identifier.id).Nodup) {i : Identifier}
    (hi : i ∈ (ix.collect d').identifiers) :
    Renews (ix.changes d' rels).identifiers i.item ∨
      Spares (ix.changes d' rels).removed (ix.changes d' rels).identifiers i.item ∧
        i ∈ (ix.collect d).identifiers := by
  have hrooted := hready'.rooted
  have hunseen := hready'.unseen
  obtain ⟨names, bytes, hfinds, hread⟩ := (mem_identifiers hrooted hunseen).mp hi
  by_cases hrel : ofComponents names ∈ rels
  · exact .inl (renews_identifier hrooted hunseen hcolon hids hfinds hrel hread)
  · obtain ⟨hbefore, hsame⟩ := h.finds hready hready' hfinds hrel
    refine .inr ⟨spares_identifier hrooted hunseen hcolon hfinds hrel hread, ?_⟩
    rw [hsame] at hread
    exact (mem_identifiers hready.rooted hready.unseen).mpr ⟨names, bytes, hbefore, hread⟩

section Edited

variable {rels : List String} (h : ix.Edited origin rels d d') (hready : ix.Ready origin home d)
  (hready' : ix.Ready origin home d') (hcolon : ∀ name ∈ rels, ':' ∉ name.toList)
  (hids : ((ix.collect d').identifiers.map Identifier.id).Nodup)
include h hready hready' hcolon hids

/-- **Everything in the edited tree is filled in, or it was in the tree before and is spared.** -/
theorem Edited.cases {i : Item} (hi : i ∈ (ix.collect d').items kind) :
    Renews ((ix.changes d' rels).items kind) i ∨
      Spares (ix.changes d' rels).removed ((ix.changes d' rels).items kind) i ∧
        i ∈ (ix.collect d).items kind := by
  cases kind with
  | files =>
    obtain ⟨document, hdocument, rfl⟩ := List.mem_map.mp hi
    exact (h.document_cases hready hready' hdocument).imp_right
      (And.imp_right (List.mem_map_of_mem ·))
  | identifiers =>
    obtain ⟨identifier, hidentifier, rfl⟩ := List.mem_map.mp hi
    exact (h.identifier_cases hready hready' hcolon hids hidentifier).imp_right
      (And.imp_right (List.mem_map_of_mem ·))

/-- Every text of the edited tree was in the tree before, or is read by the refresh. -/
theorem Edited.in_play (hbefore : ∀ kind, ∀ i ∈ (ix.collect d).items kind, texts i.text)
    (hchanges : ∀ kind, ∀ i ∈ (ix.changes d' rels).items kind, texts i.text) :
    ∀ kind, ∀ i ∈ (ix.collect d').items kind, texts i.text := by
  intro kind i hi
  rcases h.cases hready hready' hcolon hids hi with hrenews | ⟨-, hthere⟩
  · exact hchanges kind i hrenews.mem
  · exact hbefore kind i hthere

/-- **What the refresh saves of the edited tree**: all that was filled in, and of the rest what the
build before it saved, if that could be read again. -/
theorem Edited.has_iff {saved refilled : CacheKind → Cache} {d'' : Disk}
    (hreloads : ∀ kind, (saved kind).Reloads (ix.store.load kind d))
    (hhas : ∀ kind, ∀ i ∈ (ix.collect d).items kind, (saved kind).Has f i)
    (hrefreshes : ix.RefreshesBoth origin home texts f (ix.changes d' rels) refilled d' d'')
    {i : Item} (hi : i ∈ (ix.collect d').items kind) :
    (refilled kind).Has f i ↔ (saved kind).Finite ∨ i ∈ (ix.changes d' rels).items kind := by
  rcases h.cases hready hready' hcolon hids hi with hrenews | ⟨hspares, hthere⟩
  · exact iff_of_true (hrefreshes.renewed kind i hrenews) (.inr hrenews.mem)
  · have hnot : i ∉ (ix.changes d' rels).items kind := fun hmem => hspares.filled i hmem rfl
    rw [hrefreshes.spared kind i hspares, Cache.has_congr (h.caches kind),
      (hreloads kind).has_iff, or_iff_left hnot]
    exact and_iff_left (hhas kind i hthere)

end Edited

/-! ## The refresh against the build -/

/-- The disk has the same tree and no caches. -/
structure Cold (ix : Indexer σ) (origin home : Place) (d d' : Disk) : Prop where
  /-- the indexer can work there -/
  ready : ix.Ready origin home d'
  /-- the tree is the same -/
  tree : ix.SameTree origin home d d'
  /-- nothing is cached -/
  empty : ∀ kind, (ix.store.load kind d').isEmpty = true

/-- **A refresh is as good as a build, as far as caches can be read again.** A complete build of
both indexes turns `w` into `built`, and saves caches that have everything. Then the tree is edited,
and the disk of `edited` has the new tree. A refresh that is told of the edited files succeeds, and
so does the build after it. This gives the same documents, identifiers, vectors and sources as a
build that starts with no caches, and finds or embeds every item. It embeds nothing exactly when the
refresh saved every item in a cache that can be read; it saves what it reads itself, and the rest
when the build saved a cache that can be read. When all vectors are finite, nothing is embedded. -/
theorem buildBoth_after_refresh (hix : ix.Steady texts f) {w built edited cold : World σ}
    {first : FileIndex × IdentifierIndex} {rels : List String}
    (hcurrent : ix.Current origin home texts f w.disk) (hfirst : ix.buildBoth w = .ok first built)
    (hready : ix.Ready origin home edited.disk)
    (hedited : ix.Edited origin rels built.disk edited.disk)
    (hcold : ix.Cold origin home edited.disk cold.disk)
    (hcolon : ∀ name ∈ rels, ':' ∉ name.toList)
    (hids : ((ix.collect w.disk).identifiers.map Identifier.id).Nodup)
    (hids' : ((ix.collect edited.disk).identifiers.map Identifier.id).Nodup)
    (htexts : ∀ kind, ∀ i ∈ (ix.collect w.disk).items kind, texts i.text)
    (htexts' : ∀ kind, ∀ i ∈ (ix.changes edited.disk rels).items kind, texts i.text) :
    ∃ saved refilled outcome refreshed index rebuilt indexCold builtCold,
      built.disk = ix.savedCaches saved w.disk ∧
      (∀ kind, ∀ i ∈ (ix.collect w.disk).items kind, (saved kind).Has f i) ∧
      ix.refresh rels edited = .ok outcome refreshed ∧
      refreshed.disk = ix.savedCaches refilled edited.disk ∧
      ix.buildBoth refreshed = .ok index rebuilt ∧ ix.buildBoth cold = .ok indexCold builtCold ∧
      (index.1.entries = indexCold.1.entries ∧ index.2.entries = indexCold.2.entries ∧
        index.2.sources = indexCold.2.sources) ∧
      ∀ kind, let items := (ix.collect edited.disk).items kind
        let stats := statsOf index kind
        stats.cacheHits + stats.embedded = items.length ∧
        (stats.embedded = 0 ↔ ∀ i ∈ items, (refilled kind).Finite ∧ (refilled kind).Has f i) ∧
        (∀ i ∈ items, (refilled kind).Has f i ↔
          (saved kind).Finite ∨ i ∈ (ix.changes edited.disk rels).items kind) ∧
        ((∀ text, texts text → (f text).Finite) → stats.embedded = 0) := by
  obtain ⟨first', built', saved, hbuild, hbuilt⟩ := hcurrent.buildBoth hix htexts hids
  obtain ⟨rfl, rfl⟩ : first' = first ∧ built' = built := by
    rw [hbuild] at hfirst
    cases hfirst
    exact ⟨rfl, rfl⟩
  have hbefore := hcurrent.ready.collect_eq hbuilt.current.ready hbuilt.tree
  have hedit : ix.Current origin home texts f edited.disk :=
    ⟨hready, fun kind => (hbuilt.current.honest kind).congr (hedited.caches kind)⟩
  obtain ⟨outcome, refreshed, refilled, hrefresh, hrefreshed⟩ := hedit.refresh hix htexts'
  have hsame := hready.collect_eq hrefreshed.current.ready hrefreshed.tree
  -- both builds give every text of the edited tree its vector
  have hinplay := hedited.in_play hbuilt.current.ready hready hcolon hids'
    (by rw [hbefore]; exact htexts) htexts'
  obtain ⟨index, rebuilt, _, hrebuild, hrebuilt⟩ :=
    hrefreshed.current.buildBoth hix (by rw [hsame]; exact hinplay) (by rw [hsame]; exact hids')
  have hsameCold := hready.collect_eq hcold.ready hcold.tree
  have hcoldCurrent : ix.Current origin home texts f cold.disk :=
    ⟨hcold.ready, fun kind => .of_isEmpty (hcold.empty kind)⟩
  obtain ⟨indexCold, builtCold, _, hbuildCold, hrebuiltCold⟩ :=
    hcoldCurrent.buildBoth hix (by rw [hsameCold]; exact hinplay) (by rw [hsameCold]; exact hids')
  have hindexes := hrebuilt.indexes
  have hindexesCold := hrebuiltCold.indexes
  rw [hsame] at hindexes
  rw [hsameCold] at hindexesCold
  refine ⟨saved, refilled, outcome, refreshed, index, rebuilt, indexCold, builtCold, hbuilt.disk,
    hbuilt.has, hrefresh, hrefreshed.disk, hrebuild, hbuildCold, ⟨?_, ?_, ?_⟩, fun kind => ?_⟩
  · rw [hindexes.documents, hindexesCold.documents]
  · rw [hindexes.identifiers, hindexesCold.identifiers]
  · rw [hindexes.sources, hindexesCold.sources]
  · have hcounted := hrebuilt.counted kind
    rw [hsame] at hcounted
    have hhas (i : Item) (hi : i ∈ (ix.collect edited.disk).items kind) :=
      hedited.has_iff hbuilt.current.ready hready hcolon hids' hbuilt.reloads
        (by rw [hbefore]; exact hbuilt.has) hrefreshed hi
    -- an item is found when it was saved, in a cache that can be read
    have hiff : (statsOf index kind).embedded = 0 ↔ ∀ i ∈ (ix.collect edited.disk).items kind,
        (refilled kind).Finite ∧ (refilled kind).Has f i := by
      rw [hcounted.embedded, List.length_eq_zero_iff,
        hix.missing_eq_nil_iff (hrefreshed.current.honest kind) (hinplay kind)]
      exact forall₂_congr fun i _ => (hrefreshed.reloads kind).has_iff i
    refine ⟨hcounted.total, hiff, hhas, fun hfinite => hiff.mpr fun i hi => ?_⟩
    have hfiniteOf {m : Cache} (hm : m.Honest (madeOf texts f)) : m.Finite :=
      hm.finite fun text v hv => hv.2 ▸ hfinite text hv.1
    exact ⟨hfiniteOf (hrefreshed.honest kind),
      (hhas i hi).mpr (.inl (hfiniteOf (hbuilt.honest kind)))⟩

end Indexer

/-- Saving both caches changes nothing else, and both are loaded as they are read from their texts.
-/
theorem Indexer.Ready.savedCaches (h : ix.Ready origin home d) (saved : CacheKind → Cache) :
    ix.Ready origin home (ix.savedCaches saved d) ∧
      ix.SameTree origin home d (ix.savedCaches saved d) ∧
      ∀ kind, ix.store.load kind (ix.savedCaches saved d) =
        (Cache.ofText? (saved kind).text).getD ∅ := by
  have hfiles := h.update .files (saved .files)
  have hidentifiers := hfiles.ready.update .identifiers (saved .identifiers)
  refine ⟨hidentifiers.ready, hfiles.tree.trans hidentifiers.tree, fun kind => ?_⟩
  cases kind with
  | files => exact (hidentifiers.other .files nofun).trans hfiles.loaded
  | identifiers => exact hidentifiers.loaded

/-! ## Two notes, one of them edited -/

/-- A disk with a directory for caches, and two files below the root. -/
def noteDisk (text : String) : Disk :=
  ((cachesOnly.put ["repo"] .directory).put ["repo", "plain.md"] (.file "plain".toUTF8)).put
    ["repo", "notes.md"] (.file text.toUTF8)

/-- What stands on it. -/
theorem lookup_noteDisk (text : String) (p : Place) : (noteDisk text).lookup p =
    if p = ["repo", "notes.md"] then some (.file text.toUTF8)
    else if p = ["repo", "plain.md"] then some (.file "plain".toUTF8)
    else if p = ["repo"] then some .directory
    else if p = ["caches"] then some .directory
    else if p = [] then some .directory else none := by
  rw [noteDisk, lookup_put (List.cons_ne_nil _ _), lookup_put (List.cons_ne_nil _ _),
    lookup_put (List.cons_ne_nil _ _), cachesOnly, lookup_put (List.cons_ne_nil _ _), lookup_empty]

theorem isName_repo : IsName "repo" := ⟨by decide, by decide, by decide, by decide⟩

theorem isName_notes : IsName "notes.md" := ⟨by decide, by decide, by decide, by decide⟩

theorem isName_plain : IsName "plain.md" := ⟨by decide, by decide, by decide, by decide⟩

/-- There are no links on it. -/
theorem lookup_noteDisk_ne_link (text : String) (p : Place) (target : String) :
    (noteDisk text).lookup p ≠ some (.link target) := by
  rw [lookup_noteDisk]
  split_ifs <;> exact nofun

/-- It is as a file system holds it. -/
theorem sound_noteDisk (text : String) : (noteDisk text).Sound := by
  have hcaches := (settled_cachesOnly #[]).sound
  have hlookup := lookup_put (d := cachesOnly) (List.cons_ne_nil "repo" []) .directory
  have hrepo : (cachesOnly.put ["repo"] .directory).Sound :=
    hcaches.put [] rfl isName_repo (by simp [cachesOnly, lookup_put, lookup_empty]) _
  have hplain := hrepo.put ["repo"] (by rw [hlookup, if_pos rfl]) isName_plain
    (by rw [hlookup, if_neg (by decide)]; simp [cachesOnly, lookup_put, lookup_empty])
    (.file "plain".toUTF8)
  refine hplain.put ["repo"] ?_ isName_notes ?_ _
  · rw [lookup_put (List.append_ne_nil_of_right_ne_nil _ (List.cons_ne_nil _ _)), hlookup]
    simp
  · rw [lookup_put (List.append_ne_nil_of_right_ne_nil _ (List.cons_ne_nil _ _)), hlookup]
    simp [cachesOnly, lookup_put, lookup_empty]

/-- A path of one name leads to the entry of that name. -/
theorem locate_noteDisk (text : String) {name : String} (hname : IsName name) :
    (noteDisk text).locate true (join "/" name) = .ok [name] := by
  have htop : (noteDisk text).locate true "/" = .ok [] :=
    locate_iff_leads.mpr (.idle rfl (.inl rfl) (.idle rfl (.inl rfl) .arrive))
  exact locate_join true htop rfl hname fun target => lookup_noteDisk_ne_link text _ target

section Note

variable {f : String → Embedding}

/-- The directory is ready for caches. -/
theorem settled_noteDisk (f : String → Embedding) (text : String) :
    (givingIndexer f).store.Settled (noteDisk text) ["caches"] := by
  refine ⟨sound_noteDisk text, ?_, by rw [lookup_noteDisk]; rfl, ?_⟩
  · have hname : IsName "caches" := ⟨by decide, by decide, by decide, by decide⟩
    rw [← locate_noteDisk text hname]
    exact congrArg _ (show "/caches" = join "/" "caches" by decide)
  · rintro place ⟨kind, rfl | rfl⟩ <;> simp [lookup_noteDisk, Disk.Dead]

/-- Nothing is cached there. -/
theorem isEmpty_load_noteDisk (f : String → Embedding) (text : String) (kind : CacheKind) :
    ((givingIndexer f).store.load kind (noteDisk text)).isEmpty = true := by
  rw [(settled_noteDisk f text).load_eq, lookup_noteDisk]
  simp [CacheStore.cacheOf]

/-- Below the root stand two notes, and nothing else. -/
theorem file_iff_notes {text : String} {names : List String} {bytes : ByteArray} :
    (noteDisk text).lookup (["repo"] ++ names) = some (.file bytes) ↔
      names = ["notes.md"] ∧ bytes = text.toUTF8 ∨
        names = ["plain.md"] ∧ bytes = "plain".toUTF8 := by
  rw [lookup_noteDisk]
  constructor
  · intro h
    split_ifs at h with hnotes hplain
    · simp at hnotes h
      exact .inl ⟨hnotes, h.symm⟩
    · simp only [List.singleton_append, List.cons.injEq, true_and] at hplain
      exact .inr ⟨hplain, (Entry.file.inj (Option.some.inj h)).symm⟩
    all_goals cases h
  · rintro (⟨rfl, rfl⟩ | ⟨rfl, rfl⟩)
    · rfl
    · rfl

/-- The root is there. -/
theorem rooted_noteDisk (f : String → Embedding) (text : String) :
    (noteDisk text).Rooted (givingIndexer f).root ["repo"] (Owns ["caches"]) where
  sound := sound_noteDisk text
  absolute := show isAbsolute "/repo" = true by decide
  backslash := show '\\' ∉ "/repo".toList by decide
  found := by
    rw [← locate_noteDisk text isName_repo]
    exact congrArg _ (show "/repo" = join "/" "repo" by decide)
  isDirectory := by rw [lookup_noteDisk]; rfl
  plain names bytes hfile _ := by
    rcases file_iff_notes.mp hfile with ⟨rfl, -⟩ | ⟨rfl, -⟩ <;> decide

/-- An indexer can work there. -/
theorem ready_noteDisk (f : String → Embedding) (text : String) :
    (givingIndexer f).Ready ["repo"] ["caches"] (noteDisk text) where
  rooted := rooted_noteDisk f text
  opens := ⟨_, (settled_noteDisk f text).opens, rfl,
    unruled_of_forall_ne_link (lookup_noteDisk_ne_link text)⟩
  excluded names h := absurd h (by simp)

/-- The notes have other names than files with rules. -/
theorem locate_rule_noteDisk {text : String} {place : Place} {name : String} {p : Place}
    (hname : name ∈ ruleFiles)
    (hp : (noteDisk text).locate true (absoluteOf (place ++ [name])) = .ok p) :
    p ≠ ["repo", "notes.md"] ∧ p ≠ ["repo", "plain.md"] := by
  obtain ⟨front, last, rfl, hlast⟩ := exists_of_locate_rule (lookup_noteDisk_ne_link text) hname hp
  constructor
  all_goals
    intro heq
    obtain rfl : last = _ := by simpa using congrArg List.getLast? heq
    revert hlast
    decide

/-- The notes hold no rules. -/
theorem skipRules_noteDisk (text text' : String) :
    skipRules (noteDisk text') = skipRules (noteDisk text) := by
  have hways : (noteDisk text).SameWays (noteDisk text') := by
    intro p
    rw [lookup_noteDisk, lookup_noteDisk]
    by_cases hp : p = ["repo", "notes.md"]
    · rw [if_pos hp, if_pos hp]
      exact .inr ⟨trivial, trivial⟩
    · rw [if_neg hp, if_neg hp]
      exact .inl rfl
  refine readFrom_skipRules _ _ (directories_congr hways ?_) fun path hpath =>
    Disk.read_congr hways fun p hp => ?_
  · simp only [noteDisk, top_put (List.cons_ne_nil _ _)]
  · obtain ⟨place, -, hrule⟩ := List.mem_flatMap.mp hpath
    obtain ⟨name, hname, rfl⟩ := List.mem_map.mp hrule
    obtain ⟨hnotes, -⟩ := locate_rule_noteDisk hname hp
    rw [lookup_noteDisk, lookup_noteDisk, if_neg hnotes, if_neg hnotes]

/-- Where no file holds rules, nothing is skipped. -/
theorem skips_noteDisk (text : String) (place : Place) (isDirectory : Bool) :
    skipRules (noteDisk text) place isDirectory = false := by
  have htable : ∀ name ∈ ruleFiles, RuleTable.ofDisk (noteDisk text) name = [] := by
    intro name hname
    rw [RuleTable.ofDisk, List.filterMap_eq_nil_iff]
    intro place _
    cases hread : (noteDisk text).read (absoluteOf (place ++ [name])) with
    | error e => rfl
    | ok bytes =>
      -- the only files have other names
      obtain ⟨p, hp, hfile⟩ := read_eq_ok_iff.mp hread
      obtain ⟨hnotes, hplain⟩ := locate_rule_noteDisk hname hp
      rw [lookup_noteDisk, if_neg hnotes, if_neg hplain] at hfile
      split_ifs at hfile <;> cases hfile
  have hbook : RuleBook.ofDisk (noteDisk text) = ruleFiles.map fun _ => [] :=
    List.map_congr_left htable
  have hsilent : ∀ l : List (Place × List String),
      l.findSome? (fun _ => (none : Option Verdict)) = none := fun l =>
    List.findSome?_eq_none_iff.mpr fun _ _ => rfl
  rw [skipRules, hbook]
  simp [RuleBook.skips, RuleTable.verdict?, ruleFiles, hsilent]

/-- The document of a note. -/
def noteOf (name text : String) : Document :=
  Document.ofText name text 100

/-- A note is read as a text. -/
theorem readAt_note {d : Disk} {name text : String}
    (h : d.Rooted (givingIndexer f).root ["repo"] (Owns ["caches"]))
    (hname : name = "notes.md" ∨ name = "plain.md")
    (hfile : d.lookup (["repo"] ++ [name]) = some (.file text.toUTF8))
    (hsize : text.toUTF8.size ≤ 1000) (hblank : text.toList.all Unicode.isBlank = false) :
    (givingIndexer f).readAt d [name] = .text (noteOf name text) := by
  have hread := h.read_pathBelow hfile
  obtain ⟨path, hpath, hlanguage, htext, hrelative⟩ : ∃ path,
      pathBelow (givingIndexer f).root.directory [name] = path ∧ Language.ofPath? path = none ∧
        isTextDocument path = true ∧ ofComponents [name] = name := by
    rcases hname with rfl | rfl
    · exact ⟨"/repo/notes.md", show pathBelow "/repo" ["notes.md"] = _ by decide, by decide,
        by decide, by decide⟩
    · exact ⟨"/repo/plain.md", show pathBelow "/repo" ["plain.md"] = _ by decide, by decide,
        by decide, by decide⟩
  rw [hpath] at hread
  have hsource : (givingIndexer f).text? d path = some text := by
    rw [Indexer.text?, hread]
    exact (if_pos hsize).trans (fromUTF8?_toUTF8 text)
  rw [Indexer.readAt, hpath, Indexer.read, hlanguage, htext, hsource, hrelative]
  simp only [hblank]
  rfl

variable {d : Disk} {text : String}

/-- A place below the root is none of the caches. -/
theorem not_owns_repo (names : List String) : ¬Owns ["caches"] (["repo"] ++ names) := by
  rintro ⟨kind, h | h⟩ <;> simp at h

/-- Where the tree is the same, it is the two notes. -/
theorem file_iff_of_sameTree
    (htree : (givingIndexer f).SameTree ["repo"] ["caches"] (noteDisk text) d)
    {names : List String} {bytes : ByteArray} :
    d.lookup (["repo"] ++ names) = some (.file bytes) ↔
      names = ["notes.md"] ∧ bytes = text.toUTF8 ∨ names = ["plain.md"] ∧ bytes = "plain".toUTF8 :=
  (htree.files names bytes (not_owns_repo names)).trans file_iff_notes

/-- A walk finds the notes. -/
theorem finds_note (htree : (givingIndexer f).SameTree ["repo"] ["caches"] (noteDisk text) d)
    {name : String} {bytes : ByteArray} (hname : name = "notes.md" ∨ name = "plain.md")
    (hfile : d.lookup (["repo"] ++ [name]) = some (.file bytes)) :
    d.Finds ((givingIndexer f).rules d) (givingIndexer f).root ["repo"] [name] bytes := by
  refine ⟨List.cons_ne_nil _ _, hfile, ?_⟩
  obtain ⟨hisName, hplain⟩ : IsName name ∧ '\\' ∉ name.toList := by
    rcases hname with rfl | rfl
    · exact ⟨isName_notes, by decide⟩
    · exact ⟨isName_plain, by decide⟩
  have hrelative : (givingIndexer f).root.relative (pathBelow "/repo" [name]) =
      .ok (ofComponents [name]) :=
    Path.relative_pathBelow (show isAbsolute "/repo" = true by decide)
      (show '\\' ∉ "/repo".toList by decide) (List.cons_ne_nil _ _) (by simpa using hisName)
      (by simpa using hplain)
  have htakes : takesIn (givingIndexer f).root (pathBelow "/repo" [name]) = true := by
    rw [takesIn, hrelative]
    have hroot : (givingIndexer f).root = ⟨"/repo", [], []⟩ := rfl
    simp [hroot, Root.isIgnored]
  have hrules : (givingIndexer f).rules d = skipRules (noteDisk text) := htree.rules
  have hdirectory : (givingIndexer f).root.directory = "/repo" := rfl
  have hway : onTheWay [name] = [] := rfl
  rw [sees, passes, hrules, skips_noteDisk, hdirectory, htakes, hway]
  rfl

/-- **What is in the tree** are the two notes. -/
theorem mem_documents_notes (h : (givingIndexer f).Ready ["repo"] ["caches"] d)
    (htree : (givingIndexer f).SameTree ["repo"] ["caches"] (noteDisk text) d)
    (hsize : text.toUTF8.size ≤ 1000) (hblank : text.toList.all Unicode.isBlank = false)
    {document : Document} : document ∈ ((givingIndexer f).collect d).documents ↔
      document = noteOf "notes.md" text ∨ document = noteOf "plain.md" "plain" := by
  rw [Indexer.mem_documents h.rooted h.unseen]
  constructor
  · rintro ⟨names, bytes, hfinds, hread⟩
    rcases (file_iff_of_sameTree htree).mp hfinds.file with ⟨rfl, rfl⟩ | ⟨rfl, rfl⟩
    · rw [readAt_note h.rooted (.inl rfl) hfinds.file hsize hblank] at hread
      exact .inl (Option.some.inj hread).symm
    · rw [readAt_note h.rooted (.inr rfl) hfinds.file (by decide) (by decide)] at hread
      exact .inr (Option.some.inj hread).symm
  · rintro (rfl | rfl)
    · have hfile := (file_iff_of_sameTree htree).mpr (.inl ⟨rfl, rfl⟩)
      exact ⟨_, _, finds_note htree (.inl rfl) hfile,
        by rw [readAt_note h.rooted (.inl rfl) hfile hsize hblank]; rfl⟩
    · have hfile := (file_iff_of_sameTree htree).mpr (.inr ⟨rfl, rfl⟩)
      exact ⟨_, _, finds_note htree (.inr rfl) hfile,
        by rw [readAt_note h.rooted (.inr rfl) hfile (by decide) (by decide)]; rfl⟩

/-- No identifiers are in the notes. -/
theorem identifiers_notes (h : (givingIndexer f).Ready ["repo"] ["caches"] d)
    (htree : (givingIndexer f).SameTree ["repo"] ["caches"] (noteDisk text) d)
    (hsize : text.toUTF8.size ≤ 1000) (hblank : text.toList.all Unicode.isBlank = false) :
    ((givingIndexer f).collect d).identifiers = [] := by
  refine List.eq_nil_iff_forall_not_mem.mpr fun i hi => ?_
  obtain ⟨names, bytes, hfinds, hread⟩ := (Indexer.mem_identifiers h.rooted h.unseen).mp hi
  rcases (file_iff_of_sameTree htree).mp hfinds.file with ⟨rfl, rfl⟩ | ⟨rfl, rfl⟩
  · rw [readAt_note h.rooted (.inl rfl) hfinds.file hsize hblank] at hread
    cases hread
  · rw [readAt_note h.rooted (.inr rfl) hfinds.file (by decide) (by decide)] at hread
    cases hread

/-- What a refresh of the one note reads is that note. -/
theorem changes_note (h : (givingIndexer f).Ready ["repo"] ["caches"] d)
    (htree : (givingIndexer f).SameTree ["repo"] ["caches"] (noteDisk text) d)
    (hsize : text.toUTF8.size ≤ 1000) (hblank : text.toList.all Unicode.isBlank = false)
    (kind : CacheKind) : ∀ i ∈ ((givingIndexer f).changes d ["notes.md"]).items kind,
      i = (noteOf "notes.md" text).item := by
  have hfile := (file_iff_of_sameTree htree).mpr (.inl ⟨rfl, rfl⟩)
  have hreading : (givingIndexer f).readNamed d "notes.md" = .text (noteOf "notes.md" text) := by
    rw [← readAt_note h.rooted (.inl rfl) hfile hsize hblank,
      ← Indexer.readNamed_ofComponents h.rooted (List.cons_ne_nil _ _) hfile,
      show ofComponents ["notes.md"] = "notes.md" by decide]
  intro i hi
  cases kind with
  | files =>
    obtain ⟨name, hname, document, hread, rfl⟩ := Indexer.mem_changes_files.mp hi
    rw [List.mem_singleton.mp hname, hreading] at hread
    exact congrArg Document.item (Option.some.inj hread).symm
  | identifiers =>
    obtain ⟨name, hname, a, ha, -⟩ := Indexer.mem_changes_identifiers.mp hi
    rw [List.mem_singleton.mp hname, hreading] at ha
    cases ha

end Note

/-- The texts of the notes, before and after the one is edited. -/
def noteTexts : List String :=
  [(noteOf "notes.md" "one").item.text, (noteOf "notes.md" "two").item.text,
    (noteOf "plain.md" "plain").item.text]

theorem one_mem_noteTexts : (noteOf "notes.md" "one").item.text ∈ noteTexts :=
  .head _

theorem two_mem_noteTexts : (noteOf "notes.md" "two").item.text ∈ noteTexts :=
  .tail _ (.head _)

theorem plain_mem_noteTexts : (noteOf "plain.md" "plain").item.text ∈ noteTexts :=
  .tail _ (.tail _ (.head _))

/-- The vectors of the texts: the plain note gets its own. -/
def noteVector (v : Embedding) (text : String) : Embedding :=
  if text = (noteOf "plain.md" "plain").item.text then v else #[1.0]

/-- With a finite vector for the plain note, the vectors of both are finite. -/
theorem finite_noteVector (text : String) : (noteVector #[2.0] text).Finite := by
  rw [noteVector]
  split_ifs <;> exact fun x hx => List.mem_singleton.mp hx ▸ by decide +kernel

/-- The texts have different hashes, and numbers in their vectors are read back. -/
theorem steady_notes {v : Embedding} (hv : v.Legible) :
    (givingIndexer (noteVector v)).Steady (· ∈ noteTexts) (noteVector v) where
  answers _ s _ := ⟨s, rfl⟩
  legible text _ := by
    rw [noteVector]
    split_ifs
    · exact hv
    · exact Embedding.storable_one.legible
  distinct := by
    have hnodup : (noteTexts.map Fingerprint.contentHash).Nodup := by decide +kernel
    exact fun text text' htext htext' hhash => List.inj_on_of_nodup_map hnodup htext htext' hhash

/-- An indexer can work there, and nothing is cached yet. -/
theorem current_noteDisk (texts : String → Prop) (f : String → Embedding) (text : String) :
    (givingIndexer f).Current ["repo"] ["caches"] texts f (noteDisk text) :=
  ⟨ready_noteDisk f text, fun kind => .of_isEmpty (isEmpty_load_noteDisk f text kind)⟩

/-- The texts of the tree are in play. -/
theorem notes_in_play {f : String → Embedding} {d : Disk} {text : String}
    (h : (givingIndexer f).Ready ["repo"] ["caches"] d)
    (htree : (givingIndexer f).SameTree ["repo"] ["caches"] (noteDisk text) d)
    (htext : text = "one" ∨ text = "two") (kind : CacheKind) :
    ∀ i ∈ ((givingIndexer f).collect d).items kind, i.text ∈ noteTexts := by
  have hreadable : text.toUTF8.size ≤ 1000 ∧ text.toList.all Unicode.isBlank = false ∧
      (noteOf "notes.md" text).item.text ∈ noteTexts := by
    rcases htext with rfl | rfl
    · exact ⟨by decide, by decide, one_mem_noteTexts⟩
    · exact ⟨by decide, by decide, two_mem_noteTexts⟩
  obtain ⟨hsize, hblank, hmem⟩ := hreadable
  intro i hi
  cases kind with
  | files =>
    obtain ⟨document, hdocument, rfl⟩ := List.mem_map.mp hi
    rcases (mem_documents_notes h htree hsize hblank).mp hdocument with rfl | rfl
    · exact hmem
    · exact plain_mem_noteTexts
  | identifiers =>
    obtain ⟨identifier, hidentifier, rfl⟩ := List.mem_map.mp hi
    rw [identifiers_notes h htree hsize hblank] at hidentifier
    cases hidentifier

/-- The notes are indexed, and then the one is edited. -/
theorem exists_edited_notes {v : Embedding} (hv : v.Legible) :
    ∃ (built edited : World Unit) (first : FileIndex × IdentifierIndex),
      (givingIndexer (noteVector v)).buildBoth ⟨noteDisk "one", ()⟩ = .ok first built ∧
      (givingIndexer (noteVector v)).Ready ["repo"] ["caches"] edited.disk ∧
      (givingIndexer (noteVector v)).SameTree ["repo"] ["caches"] (noteDisk "two") edited.disk ∧
      (givingIndexer (noteVector v)).Edited ["repo"] ["notes.md"] built.disk edited.disk := by
  have hone := ready_noteDisk (noteVector v) "one"
  have hsame : (givingIndexer (noteVector v)).SameTree ["repo"] ["caches"] (noteDisk "one")
      (noteDisk "one") := ⟨fun _ _ _ => Iff.rfl, rfl⟩
  obtain ⟨first, built, saved, hbuild, hbuilt⟩ :=
    (current_noteDisk (· ∈ noteTexts) (noteVector v) "one").buildBoth
      (w := ⟨noteDisk "one", ()⟩) (steady_notes hv) (notes_in_play hone hsame (.inl rfl))
      (by rw [identifiers_notes hone hsame (by decide) (by decide)]; exact List.nodup_nil)
  -- the edited disk has the other note, and the caches that the build left
  obtain ⟨-, -, hloaded⟩ := hone.savedCaches saved
  obtain ⟨hready, htree, hloaded'⟩ := (ready_noteDisk (noteVector v) "two").savedCaches saved
  have hdisk : built.disk = (givingIndexer (noteVector v)).savedCaches saved (noteDisk "one") :=
    hbuilt.disk
  generalize (givingIndexer (noteVector v)).savedCaches saved (noteDisk "two") = disk
    at hready htree hloaded'
  refine ⟨built, ⟨disk, ()⟩, first, hbuild, hready, htree, fun names hrel bytes => ?_, ?_,
    fun kind => ?_⟩
  · have hne : names ≠ ["notes.md"] := by
      rintro rfl
      exact hrel (by decide)
    rw [file_iff_of_sameTree htree, file_iff_of_sameTree hbuilt.tree]
    simp [hne]
  · have hrules : skipRules (noteDisk "two") = skipRules (noteDisk "one") :=
      skipRules_noteDisk "one" "two"
    exact htree.rules.trans (hrules.trans hbuilt.tree.rules.symm)
  · rw [hdisk, hloaded, hloaded']

/-- The same tree without caches. -/
theorem exists_cold_notes {f : String → Embedding} {d : Disk} {text : String}
    (htree : (givingIndexer f).SameTree ["repo"] ["caches"] (noteDisk text) d) :
    ∃ cold : World Unit, (givingIndexer f).Cold ["repo"] ["caches"] d cold.disk :=
  ⟨⟨noteDisk text, ()⟩, ready_noteDisk f text, htree.symm, isEmpty_load_noteDisk f text⟩

/-- One of two notes is edited. When the vectors of both are finite, a build after the refresh
embeds nothing. When the vector of the other one is infinite, the build embeds again. -/
theorem Indexer.buildBoth_after_refresh_notes :
    (∃ (edited : World Unit) (outcome : RefreshOutcome) (refreshed : World Unit)
      (index : FileIndex × IdentifierIndex) (rebuilt : World Unit),
      (givingIndexer (noteVector #[2.0])).refresh ["notes.md"] edited = .ok outcome refreshed ∧
        (givingIndexer (noteVector #[2.0])).buildBoth refreshed = .ok index rebuilt ∧
        ∀ kind, (statsOf index kind).embedded = 0) ∧
    ∃ (edited : World Unit) (outcome : RefreshOutcome) (refreshed : World Unit)
      (index : FileIndex × IdentifierIndex) (rebuilt : World Unit),
      (givingIndexer (noteVector hugeVector)).refresh ["notes.md"] edited = .ok outcome refreshed ∧
        (givingIndexer (noteVector hugeVector)).buildBoth refreshed = .ok index rebuilt ∧
        index.1.stats.embedded ≠ 0 := by
  have hrefreshes {v : Embedding} (hv : v.Legible) :
      ∃ (edited : World Unit) (outcome : RefreshOutcome) (refreshed : World Unit)
        (index : FileIndex × IdentifierIndex) (rebuilt : World Unit) (saved : Cache),
        (givingIndexer (noteVector v)).refresh ["notes.md"] edited = .ok outcome refreshed ∧
          (givingIndexer (noteVector v)).buildBoth refreshed = .ok index rebuilt ∧
          ((∀ text, (noteVector v text).Finite) → ∀ kind, (statsOf index kind).embedded = 0) ∧
          saved.Has (noteVector v) (noteOf "plain.md" "plain").item ∧
          (index.1.stats.embedded = 0 → saved.Finite) := by
    have hone := ready_noteDisk (noteVector v) "one"
    have hsame : (givingIndexer (noteVector v)).SameTree ["repo"] ["caches"] (noteDisk "one")
        (noteDisk "one") := ⟨fun _ _ _ => Iff.rfl, rfl⟩
    obtain ⟨built, edited, first, hbuild, hready, htree, hedited⟩ := exists_edited_notes hv
    obtain ⟨cold, hcold⟩ := exists_cold_notes htree
    have hchanges := changes_note hready htree (by decide) (by decide)
    obtain ⟨saved, refilled, outcome, refreshed, index, rebuilt, -, -, -, hhas, hrefresh, -,
      hrebuild, -, -, hcounts⟩ := Indexer.buildBoth_after_refresh (w := ⟨noteDisk "one", ()⟩)
        (steady_notes hv) (current_noteDisk _ _ _) hbuild hready hedited hcold (by decide)
        (by rw [identifiers_notes hone hsame (by decide) (by decide)]; exact List.nodup_nil)
        (by rw [identifiers_notes hready htree (by decide) (by decide)]; exact List.nodup_nil)
        (notes_in_play hone hsame (.inl rfl))
        (fun kind i hi => by rw [hchanges kind i hi]; exact two_mem_noteTexts)
    refine ⟨edited, outcome, refreshed, index, rebuilt, saved .files, hrefresh, hrebuild,
      fun hfinite kind => (hcounts kind).2.2.2 fun text _ => hfinite text, ?_, fun hnone => ?_⟩
    · exact hhas .files _ (List.mem_map_of_mem
        ((mem_documents_notes hone hsame (by decide) (by decide)).mpr (.inr rfl)))
    · obtain ⟨-, hiff, hsaves, -⟩ := hcounts .files
      have hplain : (noteOf "plain.md" "plain").item ∈
          ((givingIndexer (noteVector v)).collect edited.disk).items .files :=
        List.mem_map_of_mem
          ((mem_documents_notes hready htree (by decide) (by decide)).mpr (.inr rfl))
      rcases (hsaves _ hplain).mp (hiff.mp hnone _ hplain).2 with hfinite | hchanged
      · exact hfinite
      -- the refresh did not read the plain note
      · exact absurd (hchanges .files _ hchanged) (by decide)
  constructor
  · obtain ⟨edited, outcome, refreshed, index, rebuilt, -, hrefresh, hrebuild, hnone, -⟩ :=
      hrefreshes Embedding.storable_two.legible
    exact ⟨edited, outcome, refreshed, index, rebuilt, hrefresh, hrebuild,
      hnone finite_noteVector⟩
  · obtain ⟨edited, outcome, refreshed, index, rebuilt, saved, hrefresh, hrebuild, -, hhas,
      hfinite⟩ := hrefreshes legible_hugeVector
    refine ⟨edited, outcome, refreshed, index, rebuilt, hrefresh, hrebuild, fun hnone => ?_⟩
    -- the build could save the vector, but not so that it can be read
    have hhuge : noteVector hugeVector (noteOf "plain.md" "plain").item.text = hugeVector :=
      if_pos rfl
    exact not_finite_hugeVector (hhuge ▸ hfinite hnone _ _ (Cache.vector?_eq_some.mp hhas))

end CodeAtlas
