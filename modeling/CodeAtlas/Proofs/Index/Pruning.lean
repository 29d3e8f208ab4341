import CodeAtlas.Proofs.Cache.Finite
import CodeAtlas.Proofs.Index.Alignment

/-!
# What a build leaves in the caches

Setup: a build of both indexes reads caches with anything in them, fills them, drops the keys that
are not live any more, and saves them. A key is live when something of the corpus has it; a key of a
call site is live when its path is that of a source file of the corpus. `Cache.Prunes` says what the
pruning of one cache ought to come to: only live keys are left, what is indexed has its entry, every
other entry of a live key is as it was before, and the keys that were dropped are counted.

**`Indexer.build_prunes`** says that both caches are pruned like this when they are saved, whatever
they held before and whatever the provider did. What is loaded afterwards is what was saved if all
its vectors are finite, and nothing at all otherwise: one vector that is not finite makes the whole
file unreadable.
-/

namespace CodeAtlas

open CodeAtlas.Fingerprint (contentHash)

variable {σ α : Type}

namespace Cache

variable {m : Cache} {item : α → Item} {things : List α} {answers : List (Option Embedding)}
  {entries : List (α × Embedding)}

/-! ## What is learned -/

/-- Learning leaves alone every key for which there is no vector. -/
theorem getElem?_learnAll_of_forall_none {key : String} {answers : List (Item × Option Embedding)}
    (h : ∀ answer ∈ answers, answer.1.key = key → answer.2 = none) :
    (m.learnAll answers)[key]? = m[key]? := by
  induction answers generalizing m with
  | nil => rfl
  | cons answer answers ih =>
    rw [learnAll, List.foldl_cons, ← learnAll, ih fun a ha => h a (List.mem_cons_of_mem _ ha)]
    by_cases hkey : answer.1.key = key
    · rw [learn, h answer List.mem_cons_self hkey]
    · exact getElem?_learn_of_ne hkey

/-- Learning drops no key. -/
theorem mem_learnAll {key : String} (h : key ∈ m) (answers : List (Item × Option Embedding)) :
    key ∈ m.learnAll answers := by
  induction answers generalizing m with
  | nil => exact h
  | cons answer answers ih =>
    rw [learnAll, List.foldl_cons, ← learnAll]
    apply ih
    rw [learn]
    split
    · exact Std.TreeMap.mem_insert.mpr (.inr h)
    · exact h

/-- A thing is indexed with what the cache has of it, or with an answer to its item. -/
theorem Aligns.knows_or_answered (h : m.Aligns item things answers entries) {thing : α}
    {v : Embedding} (hmem : (thing, v) ∈ entries) : m.Knows (item thing) v ∨
      (item thing, some v) ∈ (m.missing (things.map item)).zip answers := by
  induction h with
  | nil => cases hmem
  | @cached first things v' answers entries known rest ih =>
    rw [List.map_cons, missing_cons_of_knows known]
    rcases List.mem_cons.mp hmem with heq | hmem
    · obtain ⟨rfl, rfl⟩ := Prod.mk.inj heq
      exact .inl known
    · exact ih hmem
  | @fresh first things v' answers entries unknown rest ih =>
    rw [List.map_cons, missing_cons_of_unknown unknown, List.zip_cons_cons]
    rcases List.mem_cons.mp hmem with heq | hmem
    · obtain ⟨rfl, rfl⟩ := Prod.mk.inj heq
      exact .inr List.mem_cons_self
    · exact (ih hmem).imp_right (List.mem_cons_of_mem _)
  | @skipped first things answers entries unknown rest ih =>
    rw [List.map_cons, missing_cons_of_unknown unknown, List.zip_cons_cons]
    exact (ih hmem).imp_right (List.mem_cons_of_mem _)

/-- An answer that is a vector is that of a thing that is indexed with it. -/
theorem Aligns.exists_of_answered (h : m.Aligns item things answers entries) {i : Item}
    {v : Embedding} (hmem : (i, some v) ∈ (m.missing (things.map item)).zip answers) :
    ∃ thing, item thing = i ∧ (thing, v) ∈ entries := by
  induction h with
  | nil => cases hmem
  | @cached first things v' answers entries known rest ih =>
    rw [List.map_cons, missing_cons_of_knows known] at hmem
    obtain ⟨thing, hthing, hentry⟩ := ih hmem
    exact ⟨thing, hthing, List.mem_cons_of_mem _ hentry⟩
  | @fresh first things v' answers entries unknown rest ih =>
    rw [List.map_cons, missing_cons_of_unknown unknown, List.zip_cons_cons] at hmem
    rcases List.mem_cons.mp hmem with heq | hmem
    · obtain ⟨rfl, hv⟩ := Prod.mk.inj heq
      obtain rfl := Option.some.inj hv
      exact ⟨first, rfl, List.mem_cons_self⟩
    · obtain ⟨thing, hthing, hentry⟩ := ih hmem
      exact ⟨thing, hthing, List.mem_cons_of_mem _ hentry⟩
  | @skipped first things answers entries unknown rest ih =>
    rw [List.map_cons, missing_cons_of_unknown unknown, List.zip_cons_cons] at hmem
    rcases List.mem_cons.mp hmem with heq | hmem
    · cases (Prod.mk.inj heq).2
    · exact ih hmem

/-- Items with different keys get one answer each. -/
theorem eq_of_mem_zip {items : List Item} (hkeys : (items.map Item.key).Nodup)
    (hlength : answers.length = items.length) {i j : Item} {answer answer' : Option Embedding}
    (hi : (i, answer) ∈ items.zip answers) (hj : (j, answer') ∈ items.zip answers)
    (hkey : j.key = i.key) : (j, answer') = (i, answer) := by
  have hnodup : ((items.zip answers).map fun pair => pair.1.key).Nodup := by
    rw [← List.map_fst_zip hlength.ge, List.map_map] at hkeys
    exact hkeys
  exact List.inj_on_of_nodup_map hnodup hj hi hkey

/-! ## Pruning -/

/-- Something was indexed under this key with a vector that is not from the cache. -/
def Renewed (m : Cache) (item : α → Item) (entries : List (α × Embedding)) (key : String) : Prop :=
  ∃ thing v, (thing, v) ∈ entries ∧ (item thing).key = key ∧ m.vector? key (item thing).hash = none

/-- What pruning ought to come to, for things that are indexed with these vectors. -/
structure Prunes (before after : Cache) (item : α → Item) (entries : List (α × Embedding))
    (live : String → Prop) (pruned : Nat) : Prop where
  /-- only live keys are left -/
  only : ∀ key ∈ after, live key
  /-- what is indexed has its entry, with the hash of its text and its vector -/
  indexed : ∀ thing v, (thing, v) ∈ entries →
    after[(item thing).key]? = some ⟨contentHash (item thing).text, v⟩
  /-- what is live and was not embedded anew is as it was before -/
  kept : ∀ key, live key → ¬before.Renewed item entries key → after[key]? = before[key]?
  /-- the keys that were dropped are counted -/
  counted : pruned = (before.keys.filter fun key => !after.contains key).length

/-- Live keys may be said in other words. -/
theorem Prunes.congr {before after : Cache} {live live' : String → Prop} {pruned : Nat}
    (h : Prunes before after item entries live pruned) (hlive : ∀ key, live key ↔ live' key) :
    Prunes before after item entries live' pruned where
  only key hkey := (hlive key).mp (h.only key hkey)
  indexed := h.indexed
  kept key hkey := h.kept key ((hlive key).mpr hkey)
  counted := h.counted

/-- Pruning drops as many keys as are not wanted. -/
theorem prune_fst_eq (m : Cache) (wanted : String → Bool) :
    (m.prune wanted).1 = (m.keys.filter fun key => !wanted key).length := by
  have hsplit := List.length_eq_length_filter_add (l := m.keys) wanted
  rw [prune, ← Std.TreeMap.length_keys, ← Std.TreeMap.length_keys, Std.TreeMap.keys_filter_key,
    hsplit]
  simp

/-- What is missing is not known. -/
theorem vector?_of_mem_missing {items : List Item} {i : Item} (h : i ∈ m.missing items) :
    m.vector? i.key i.hash = none :=
  Option.isNone_iff_eq_none.mp (List.mem_filter.mp h).2

/-- The wanted keys are left. -/
theorem mem_prune {wanted : String → Bool} {key : String} :
    key ∈ (m.prune wanted).2 ↔ wanted key = true ∧ key ∈ m := by
  rw [Std.TreeMap.mem_iff_isSome_getElem?, getElem?_prune, Std.TreeMap.mem_iff_isSome_getElem?]
  split <;> simp [*]

/-- As many keys are counted where the same are counted. -/
theorem length_filter_keys_congr {m m' : Cache} {p q : String → Bool}
    (h : ∀ key, (key ∈ m ∧ p key = true) ↔ (key ∈ m' ∧ q key = true)) :
    (m.keys.filter p).length = (m'.keys.filter q).length := by
  have hperm : (m.keys.filter p).Perm (m'.keys.filter q) := by
    refine (List.perm_ext_iff_of_nodup (Std.TreeMap.nodup_keys.filter _)
      (Std.TreeMap.nodup_keys.filter _)).mpr fun key => ?_
    simp only [List.mem_filter, Std.TreeMap.mem_keys, h]
  exact hperm.length_eq

section Filled

variable (hlength : answers.length = (m.missing (things.map item)).length)

include hlength

/-- Only things are indexed. -/
theorem mem_of_filled {thing : α} {v : Embedding}
    (hmem : (thing, v) ∈ embeddedEntries things (m.filled (things.map item) answers).vectors) :
    thing ∈ things :=
  (aligns_closeGaps hlength).sublist.subset (List.mem_map_of_mem hmem)

/-- What is indexed has its entry, when things have different keys. -/
theorem getElem?_filled_of_entry (hkeys : ((things.map item).map Item.key).Nodup) {thing : α}
    {v : Embedding}
    (hmem : (thing, v) ∈ embeddedEntries things (m.filled (things.map item) answers).vectors) :
    (m.filled (things.map item) answers).cache[(item thing).key]? =
      some ⟨contentHash (item thing).text, v⟩ := by
  have hthing := mem_of_filled hlength hmem
  rw [filled]
  rcases (aligns_closeGaps hlength).knows_or_answered hmem with hknows | hanswered
  · -- no answer goes under the key of a thing that is known
    rw [getElem?_learnAll_of_forall_ne]
    · exact hknows
    · intro answer hanswer hkey
      have hin := (List.of_mem_zip hanswer).1
      have hsame :
        answer.1 = item thing := List.inj_on_of_nodup_map hkeys (List.mem_of_mem_filter hin)
        (List.mem_map_of_mem hthing) hkey
      have hnone := vector?_of_mem_missing hin
      rw [hsame, vector?_eq_some_iff_knows.mpr hknows] at hnone
      cases hnone
  · have hmissing : ((m.missing (things.map item)).map Item.key).Nodup :=
      hkeys.sublist (List.filter_sublist.map Item.key)
    exact getElem?_learnAll_of_mem hanswered fun answer hanswer hkey =>
      eq_of_mem_zip hmissing hlength hanswered hanswer hkey

/-- A key under which nothing was embedded anew is as it was before. -/
theorem getElem?_filled_of_not_renewed {key : String}
    (hrenewed : ¬m.Renewed item
      (embeddedEntries things (m.filled (things.map item) answers).vectors) key) :
    (m.filled (things.map item) answers).cache[key]? = m[key]? := by
  refine getElem?_learnAll_of_forall_none fun answer hanswer hkey => ?_
  obtain ⟨i, v?⟩ := answer
  cases v? with
  | none => rfl
  | some v =>
    obtain ⟨thing, rfl, hentry⟩ := (aligns_closeGaps hlength).exists_of_answered hanswer
    subst hkey
    exact absurd ⟨thing, v, hentry, rfl, vector?_of_mem_missing (List.of_mem_zip hanswer).1⟩
      hrenewed

/-- A key is either from before, or that of a thing. -/
theorem mem_filled {key : String} (hkey : key ∈ (m.filled (things.map item) answers).cache) :
    key ∈ m ∨ ∃ thing ∈ things, (item thing).key = key := by
  rw [Std.TreeMap.mem_iff_isSome_getElem?, Option.isSome_iff_exists] at hkey
  obtain ⟨entry, hentry⟩ := hkey
  rcases getElem?_learnAll_eq_some hentry with hold | ⟨i, hi, rfl, -⟩
  · refine .inl (Std.TreeMap.mem_iff_isSome_getElem?.mpr ?_)
    rw [hold]
    rfl
  · obtain ⟨thing, rfl, hmem⟩ := (aligns_closeGaps hlength).exists_of_answered hi
    exact .inr ⟨thing, mem_of_filled hlength hmem, rfl⟩

/-- **Filling and pruning come to what they ought to**, when things have different keys and all of
them are wanted. -/
theorem prunes_filled {wanted : String → Bool} (hkeys : ((things.map item).map Item.key).Nodup)
    (hwanted : ∀ thing ∈ things, wanted (item thing).key = true) :
    Prunes m ((m.filled (things.map item) answers).cache.prune wanted).2 item
      (embeddedEntries things (m.filled (things.map item) answers).vectors) (wanted · = true)
      ((m.filled (things.map item) answers).cache.prune wanted).1 where
  only key hkey := (mem_prune.mp hkey).1
  indexed thing v hmem := by
    rw [getElem?_prune, if_pos (hwanted thing (mem_of_filled hlength hmem))]
    exact getElem?_filled_of_entry hlength hkeys hmem
  kept key hlive hrenewed := by
    rw [getElem?_prune, if_pos hlive]
    exact getElem?_filled_of_not_renewed hlength hrenewed
  counted := by
    rw [prune_fst_eq]
    refine length_filter_keys_congr fun key => ?_
    simp only [Bool.not_eq_true', ← Bool.not_eq_true, Std.TreeMap.contains_iff_mem, mem_prune,
      not_and]
    constructor
    · rintro ⟨hkey, hunwanted⟩
      rcases mem_filled hlength hkey with hold | ⟨thing, hthing, rfl⟩
      · exact ⟨hold, fun hkeyWanted => absurd hkeyWanted hunwanted⟩
      · exact absurd (hwanted thing hthing) hunwanted
    · rintro ⟨hkey, hdropped⟩
      have hfilled := mem_learnAll hkey ((m.missing (things.map item)).zip answers)
      exact ⟨hfilled, fun hkeyWanted => hdropped hkeyWanted hfilled⟩

end Filled

end Cache

/-! ## Live keys -/

namespace Corpus

/-- The files that have a key. -/
theorem keepsFile_iff {c : Corpus} {key : String} :
    c.keepsFile key = true ↔ ∃ document ∈ c.documents, CacheKey.file document.path = key := by
  simp [keepsFile]

/-- The identifiers that have a key, and the call sites in source files. -/
theorem keepsIdentifier_iff {c : Corpus} {key : String} : c.keepsIdentifier key = true ↔
    (∃ i ∈ c.identifiers, CacheKey.identifier i.id = key) ∨
      ∃ path ∈ c.sources, CacheKey.callSitePath? key = some path := by
  rw [keepsIdentifier]
  split
  · next path hpath =>
    have hnone : ¬∃ i ∈ c.identifiers, CacheKey.identifier i.id = key := by
      rintro ⟨i, -, rfl⟩
      rw [CacheKey.callSitePath?_identifier] at hpath
      cases hpath
    simp [hpath, hnone]
  · next hpath => simp [hpath]

end Corpus

/-! ## Builds -/

namespace Indexer

variable {ix : Indexer σ} {w w' : World σ} {c : Corpus}

/-- A pass that succeeds saves a pruned cache. -/
theorem prunes_of_pass {kind : CacheKind} {wanted : String → Bool} {item : α → Item}
    {things : List α} {result : Filled × Nat} (hkeys : ((things.map item).map Item.key).Nodup)
    (hwanted : ∀ thing ∈ things, wanted (item thing).key = true)
    (h : ix.pass kind (things.map item) wanted w = .ok result w') :
    ∃ saved, w'.disk = ix.savedCache kind saved w.disk ∧
      Cache.Prunes (ix.store.load kind w.disk) saved item (embeddedEntries things result.1.vectors)
        (wanted · = true) result.2 := by
  rcases ix.pass_cases kind (things.map item) wanted w with ⟨filled, s, hfill, hpass⟩ |
    ⟨e, s, hpass⟩
  · rw [hpass] at h
    cases h
    obtain ⟨answers, hcall, rfl⟩ := Cache.fill_eq_ok_iff.mp hfill
    have hlength := (Batching.settles_of_embedLenient hcall).length_eq
    rw [List.length_map] at hlength
    exact ⟨_, rfl, Cache.prunes_filled hlength.symm hkeys hwanted⟩
  · rw [hpass] at h
    cases h

/-- A build of a file index that succeeds saves a pruned cache. -/
theorem prunes_of_buildFiles {index : FileIndex} (hkeys : (c.fileItems.map Item.key).Nodup)
    (h : ix.buildFiles c w = .ok index w') :
    ∃ saved, w'.disk = ix.savedCache .files saved w.disk ∧
      Cache.Prunes (ix.store.load .files w.disk) saved Document.item index.entries
        (fun key => ∃ document ∈ c.documents, CacheKey.file document.path = key)
          index.stats.pruned := by
  rw [buildFiles_eq_map] at h
  obtain ⟨result, hpass, rfl⟩ := Work.exists_of_map_eq_ok h
  obtain ⟨saved, hdisk, hprunes⟩ := prunes_of_pass hkeys (fun _ => keepsFile_key) hpass
  rw [entries_fileIndexOf]
  exact ⟨saved, hdisk, hprunes.congr fun _ => Corpus.keepsFile_iff⟩

/-- A build of an identifier index that succeeds saves a pruned cache. -/
theorem prunes_of_buildIdentifiers {index : IdentifierIndex}
    (hkeys : (c.identifierItems.map Item.key).Nodup) (h : ix.buildIdentifiers c w = .ok index w') :
    ∃ saved, w'.disk = ix.savedCache .identifiers saved w.disk ∧
      Cache.Prunes (ix.store.load .identifiers w.disk) saved Identifier.item index.entries
        (fun key => (∃ i ∈ c.identifiers, CacheKey.identifier i.id = key) ∨
          ∃ path ∈ c.sources, CacheKey.callSitePath? key = some path) index.stats.pruned := by
  rw [buildIdentifiers_eq_map] at h
  obtain ⟨result, hpass, rfl⟩ := Work.exists_of_map_eq_ok h
  obtain ⟨saved, hdisk, hprunes⟩ := prunes_of_pass hkeys (fun _ => keepsIdentifier_key) hpass
  rw [entries_identifierIndexOf]
  exact ⟨saved, hdisk, hprunes.congr fun _ => Corpus.keepsIdentifier_iff⟩

/-- **What a build of both indexes leaves in the caches.** Their directory can be opened, the keys
of the corpus are distinct, and both builds succeed. Then both caches are pruned when they are
saved, whatever they held before: the cache of files has keys of documents only, and the cache of
identifiers has keys of identifiers, and of call sites in source files, whose entries are as they
were before. The caches that are loaded afterwards are read from the texts of those; where numbers
are read back, these are the same caches exactly when all their components are finite, and empty
ones otherwise. -/
theorem build_prunes {d : Disk} {home : Place} {w₁ w₂ : World σ} {files : FileIndex}
    {identifiers : IdentifierIndex} (hopens : ix.store.Opens w.disk d home)
    (hfileKeys : (c.fileItems.map Item.key).Nodup)
    (hidentifierKeys : (c.identifierItems.map Item.key).Nodup)
    (hfiles : ix.buildFiles c w = .ok files w₁)
    (hidentifiers : ix.buildIdentifiers c w₁ = .ok identifiers w₂) :
    ∃ saved : CacheKind → Cache,
      Cache.Prunes (ix.store.load .files w.disk) (saved .files) Document.item files.entries
        (fun key => ∃ document ∈ c.documents, CacheKey.file document.path = key)
          files.stats.pruned ∧
      Cache.Prunes (ix.store.load .identifiers w.disk) (saved .identifiers) Identifier.item
        identifiers.entries (fun key => (∃ i ∈ c.identifiers, CacheKey.identifier i.id = key) ∨
          ∃ path ∈ c.sources, CacheKey.callSitePath? key = some path) identifiers.stats.pruned ∧
      (∀ key path, CacheKey.callSitePath? key = some path → path ∈ c.sources →
        (saved .identifiers)[key]? = (ix.store.load .identifiers w.disk)[key]?) ∧
      ∀ kind, ix.store.load kind w₂.disk = (Cache.ofText? (saved kind).text).getD ∅ ∧
        ((saved kind).Legible →
          ((ix.store.load kind w₂.disk).Equiv (saved kind) ↔ (saved kind).Finite) ∧
          (¬(saved kind).Finite → ix.store.load kind w₂.disk = ∅)) := by
  obtain ⟨m, hm, hpruned⟩ := prunes_of_buildFiles hfileKeys hfiles
  obtain ⟨m', hm', hpruned'⟩ := prunes_of_buildIdentifiers hidentifierKeys hidentifiers
  obtain ⟨hfirst, hsecond, hbefore, hafter⟩ := written_savedCaches hopens hm hm'
  rw [hbefore] at hpruned'
  refine ⟨CacheKind.select m m', hpruned, hpruned', ?_, ?_⟩
  · intro key path hkey hpath
    refine hpruned'.kept key (.inr ⟨path, hpath, hkey⟩) ?_
    rintro ⟨i, v, -, rfl, -⟩
    rw [Identifier.item, CacheKey.callSitePath?_identifier] at hkey
    cases hkey
  · intro kind
    cases kind with
    | files =>
      rw [hafter]
      exact ⟨hfirst.loaded, hfirst.load_iff⟩
    | identifiers => exact ⟨hsecond.loaded, hsecond.load_iff⟩

end Indexer

/-! ## A vector out of range -/

/-- A note is indexed with the vector, and after the build the cache of files is empty. -/
theorem Indexer.build_prunes_huge : ∃ files w₁ identifiers w₂,
    (constantIndexer hugeVector).buildFiles oneNote ⟨cachesOnly, ()⟩ = .ok files w₁ ∧
      (constantIndexer hugeVector).buildIdentifiers oneNote w₁ = .ok identifiers w₂ ∧
      files.entries = oneNote.documents.map (·, hugeVector) ∧
      (constantIndexer hugeVector).store.load .files w₂.disk = ∅ := by
  have hg := Provider.gives_giving (fun _ => hugeVector) (constantIndexer hugeVector).batching
  obtain ⟨files, s, hfiles, hentries, -⟩ := buildFiles_eq hg oneNote ⟨cachesOnly, ()⟩
  obtain ⟨identifiers, s', hidentifiers, -⟩ := buildIdentifiers_eq hg oneNote
    ⟨(constantIndexer hugeVector).savedCache .files _ cachesOnly, s⟩
  obtain ⟨saved, hpruned, -, -, hloaded⟩ := build_prunes (settled_cachesOnly hugeVector).opens
    (by decide) (by decide) hfiles hidentifiers
  have hnew : files.entries = oneNote.documents.map (·, hugeVector) := by
    rw [hentries]
    simp only [recalled_of_isEmpty (isEmpty_load_cachesOnly hugeVector .files)]
    rfl
  -- the note has the only entry
  have hnote : (saved .files)["notes.md"]? = some ⟨noteItem.hash, hugeVector⟩ :=
    hpruned.indexed ⟨"notes.md", "", [], [], "note"⟩ hugeVector
      (by rw [hnew]; exact List.mem_cons_self)
  have hentry (key : String) (entry : CacheEntry) (hkey : (saved .files)[key]? = some entry) :
      entry.vector = hugeVector := by
    obtain ⟨document, hdocument, rfl⟩ :=
      hpruned.only key (Std.TreeMap.mem_iff_isSome_getElem?.mpr (by rw [hkey]; rfl))
    rw [List.mem_singleton.mp hdocument, CacheKey.file, hnote] at hkey
    rw [← Option.some.inj hkey]
  have hlegible : (saved .files).Legible := fun key entry hkey =>
    hentry key entry hkey ▸ legible_hugeVector
  refine ⟨files, _, identifiers, _, hfiles, hidentifiers, hnew, ((hloaded .files).2 hlegible).2 ?_⟩
  exact fun hfinite => not_finite_hugeVector (hfinite "notes.md" _ hnote)

end CodeAtlas
