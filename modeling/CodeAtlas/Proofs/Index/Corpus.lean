import CodeAtlas.Proofs.Cache.Fill
import CodeAtlas.Proofs.Cache.Keys
import CodeAtlas.Proofs.Walk

/-!
# What is collected, and what a refresh reads

Setup: a build reads the files that a walk finds (`Indexer.collect`), and a refresh the files that
it is told of (`Indexer.changes`). A file that a walk finds is read the same by both
(**`Indexer.readNamed_ofComponents`**), and what is read bears the name of the file, so that the
keys of different files are different (**`Indexer.keyed_fileItems`**,
**`Indexer.keyed_identifierItems`**).
-/

namespace CodeAtlas

open CodeAtlas.Disk CodeAtlas.Path CodeAtlas.Unicode

variable {σ : Type} {ix : Indexer σ} {d d' : Disk} {origin : Place} {aside : Place → Prop}
  {names : List String}

/-! ## Readings -/

/-- What was read bears a name: the document has it as its path, and the ids start with it. -/
structure FileReading.Named (r : FileReading) (name : String) : Prop where
  /-- the path of the document -/
  path : ∀ document, r.document? = some document → document.path = name
  /-- the ids of the identifiers -/
  ids : ∀ i ∈ r.identifiers, ∃ rest, i.id.toList = name.toList ++ ':' :: rest

/-- An id starts with one name only, if there is no colon in it. -/
theorem eq_of_ids {id name name' : String} (hname : ':' ∉ name.toList) (hname' : ':' ∉ name'.toList)
    (h : ∃ rest, id.toList = name.toList ++ ':' :: rest)
    (h' : ∃ rest, id.toList = name'.toList ++ ':' :: rest) : name = name' := by
  obtain ⟨rest, hrest⟩ := h
  obtain ⟨rest', hrest'⟩ := h'
  refine String.toList_inj.mp ?_
  rw [← takeWhile_append_colon hname rest, ← takeWhile_append_colon hname' rest', ← hrest, ← hrest']

/-- Nothing bears any name. -/
theorem FileReading.named_skipped (name : String) : FileReading.skipped.Named name where
  path _ h := nomatch h
  ids _ h := nomatch h

/-- An id starts with the name of the file. -/
theorem Identifier.toList_idOf (path : String) (entry : SymbolEntry) :
    ∃ rest, (idOf path entry).toList = path.toList ++ ':' :: rest := by
  refine ⟨entry.name.toList ++ ':' :: (toString entry.line).toList, ?_⟩
  simp [idOf, toString]

namespace Indexer

/-- What a file can give: nothing, a text, or what the tree of a source tells. -/
theorem read_cases (ix : Indexer σ) (d : Disk) (name path : String) :
    ix.read d name path = .skipped ∨
      (∃ source, ix.read d name path = .text (Document.ofText name source ix.documentChars)) ∨
      ∃ language source tree, ix.parser language source = some tree ∧
        let analysis := Analysis.ofTree language source tree
        ix.read d name path = .code (Document.ofAnalysis name analysis ix.documentChars)
          (identifiersOf name analysis) source := by
  rw [read]
  dsimp only
  by_cases hunknown : (!(Language.ofPath? path).isSome && !isTextDocument path) = true
  · exact .inl (if_pos hunknown)
  rw [if_neg hunknown]
  cases ix.text? d path with
  | none => exact .inl rfl
  | some source =>
    dsimp only
    by_cases hblank : source.toList.all isBlank = true
    · exact .inl (if_pos hblank)
    rw [if_neg hblank, Analysis.ofSource]
    cases Language.ofPath? path with
    | none => exact .inr (.inl ⟨source, rfl⟩)
    | some language =>
      dsimp only [Option.isSome_some, if_true]
      cases htree : ix.parser language source with
      | none =>
        by_cases htext : isTextDocument path = true
        · exact .inr (.inl ⟨source, if_pos htext⟩)
        · exact .inl (if_neg htext)
      | some tree => exact .inr (.inr ⟨language, source, tree, htree, rfl⟩)

/-- What is read under a name bears the name. -/
theorem named_read (ix : Indexer σ) (d : Disk) (name path : String) :
    (ix.read d name path).Named name := by
  rcases ix.read_cases d name path with hskipped | ⟨source, htext⟩ | ⟨_, _, _, -, hcode⟩
  · rw [hskipped]
    exact FileReading.named_skipped name
  · rw [htext]
    exact ⟨fun document hdocument => Option.some.inj hdocument ▸ rfl, fun i hi => nomatch hi⟩
  · rw [hcode]
    refine ⟨fun document hdocument => Option.some.inj hdocument ▸ rfl, fun i hi => ?_⟩
    obtain ⟨⟨symbol, owner⟩, -, rfl⟩ := List.mem_map.mp hi
    exact Identifier.toList_idOf name symbol.entry

/-- What a refresh reads under a name bears the name. -/
theorem named_readNamed (ix : Indexer σ) (d : Disk) (name : String) :
    (ix.readNamed d name).Named name := by
  rw [readNamed]
  split_ifs
  · exact named_read ..
  · exact FileReading.named_skipped name

/-- What is read depends on the bytes at the path. -/
theorem read_congr {name path : String} (h : d'.read path = d.read path) :
    ix.read d' name path = ix.read d name path := by
  have htext : ix.text? d' path = ix.text? d path := by rw [text?, text?, h]
  rw [read, read, htext]

/-- What the file of these names below the root gives. -/
def readAt (ix : Indexer σ) (d : Disk) (names : List String) : FileReading :=
  ix.read d (ofComponents names) (pathBelow ix.root.directory names)

/-- **A refresh reads a file as a build does.** -/
theorem readNamed_ofComponents (h : d.Rooted ix.root origin aside) {bytes : ByteArray}
    (hne : names ≠ []) (hfile : d.lookup (origin ++ names) = some (.file bytes)) :
    ix.readNamed d (ofComponents names) = ix.readAt d names := by
  have hsome : (d.lookup (origin ++ names)).isSome := by rw [hfile]; rfl
  have hpath : ix.root.absolute (ofComponents names) = pathBelow ix.root.directory names :=
    (pathBelow_eq _ hne (h.sound.isName origin hsome)).symm
  rw [readNamed, hpath, h.isFile_pathBelow hfile]
  rfl

/-! ## The corpus -/

/-- The corpus is what the files give that a walk finds. -/
theorem collect_eq (ix : Indexer σ) (d : Disk) : ix.collect d =
    .ofReadings
      ((d.walk (ix.rules d) ix.root {}).map fun found => ix.read d found.name found.path) :=
  rfl

/-- **The same is collected** under the same rules from the same files. -/
theorem collect_congr (h : d.Rooted ix.root origin aside) (h' : d'.Rooted ix.root origin aside)
    (hunseen : Unseen ix.root origin aside) (hrules : ix.rules d' = ix.rules d)
    (hfiles : SameFiles origin aside d d') : ix.collect d' = ix.collect d := by
  rw [collect_eq, collect_eq, hrules, walk_congr h h' hunseen (ix.rules d) hfiles]
  congr 1
  refine List.map_congr_left fun found hfound => ?_
  obtain ⟨names, bytes, hfinds, rfl⟩ := (mem_walk h hunseen).mp hfound
  have hseen := hunseen.not_aside hfinds.ne_nil hfinds.sees
  refine read_congr ?_
  rw [reachedAt, h.read_pathBelow hfinds.file,
    h'.read_pathBelow ((hfiles names bytes hseen).mpr hfinds.file)]

/-- The documents that are collected. -/
theorem mem_documents (h : d.Rooted ix.root origin aside) (hunseen : Unseen ix.root origin aside)
    {document : Document} :
    document ∈ (ix.collect d).documents ↔
      ∃ names bytes, d.Finds (ix.rules d) ix.root origin names bytes ∧
      (ix.readAt d names).document? = some document := by
  rw [collect_eq, Corpus.ofReadings, List.mem_filterMap]
  constructor
  · rintro ⟨reading, hreading, hdocument⟩
    obtain ⟨found, hfound, rfl⟩ := List.mem_map.mp hreading
    obtain ⟨names, bytes, hfinds, rfl⟩ := (mem_walk h hunseen).mp hfound
    exact ⟨names, bytes, hfinds, hdocument⟩
  · rintro ⟨names, bytes, hfinds, hdocument⟩
    exact ⟨_, List.mem_map_of_mem ((mem_walk h hunseen).mpr ⟨names, bytes, hfinds, rfl⟩), hdocument⟩

/-- The identifiers that are collected. -/
theorem mem_identifiers (h : d.Rooted ix.root origin aside) (hunseen : Unseen ix.root origin aside)
    {i : Identifier} :
    i ∈ (ix.collect d).identifiers ↔
      ∃ names bytes, d.Finds (ix.rules d) ix.root origin names bytes ∧
      i ∈ (ix.readAt d names).identifiers := by
  rw [collect_eq, Corpus.ofReadings, List.mem_flatMap]
  constructor
  · rintro ⟨reading, hreading, hi⟩
    obtain ⟨found, hfound, rfl⟩ := List.mem_map.mp hreading
    obtain ⟨names, bytes, hfinds, rfl⟩ := (mem_walk h hunseen).mp hfound
    exact ⟨names, bytes, hfinds, hi⟩
  · rintro ⟨names, bytes, hfinds, hi⟩
    exact ⟨_, List.mem_map_of_mem ((mem_walk h hunseen).mpr ⟨names, bytes, hfinds, rfl⟩), hi⟩

/-! ## Keys

The name of a file is in the key of its document and in the keys of its identifiers, and without
colons it can be read off them. -/

/-- The files that a walk finds have different names. -/
theorem finds_inj (h : d.Rooted ix.root origin aside) {names' : List String}
    {bytes bytes' : ByteArray} (hfinds : d.Finds (ix.rules d) ix.root origin names bytes)
    (hfinds' : d.Finds (ix.rules d) ix.root origin names' bytes')
    (heq : ofComponents names = ofComponents names') :
    names = names' :=
  ofComponents_inj hfinds.ne_nil hfinds'.ne_nil
    (h.sound.isName origin (by rw [hfinds.file]; rfl))
    (h.sound.isName origin (by rw [hfinds'.file]; rfl)) heq

/-- There is no colon in the name of a file that a walk finds. -/
theorem colon_notMem (h : d.Rooted ix.root origin aside) (hunseen : Unseen ix.root origin aside)
    {bytes : ByteArray} (hfinds : d.Finds (ix.rules d) ix.root origin names bytes) :
    ':' ∉ (ofComponents names).toList := by
  intro hcolon
  rw [toList_ofComponents] at hcolon
  rcases mem_intercalate hcolon with hslash | ⟨piece, hpiece, hc⟩
  · cases hslash
  · obtain ⟨name, hname, rfl⟩ := List.mem_map.mp hpiece
    have hseen := hunseen.not_aside hfinds.ne_nil hfinds.sees
    exact (h.plain names bytes hfinds.file hseen name hname).2 hc

/-- **No two documents want one key.** -/
theorem keyed_fileItems (h : d.Rooted ix.root origin aside)
    (hunseen : Unseen ix.root origin aside) :
    Cache.Keyed (ix.collect d).fileItems := by
  intro i hi j hj hkey
  obtain ⟨document, hdocument, rfl⟩ := List.mem_map.mp hi
  obtain ⟨document', hdocument', rfl⟩ := List.mem_map.mp hj
  obtain ⟨names, bytes, hfinds, hread⟩ := (mem_documents h hunseen).mp hdocument
  obtain ⟨names', bytes', hfinds', hread'⟩ := (mem_documents h hunseen).mp hdocument'
  have hpath := (named_read ix d _ _).path document hread
  have hpath' := (named_read ix d _ _).path document' hread'
  have hpaths : document.path = document'.path := hkey
  rw [hpath, hpath'] at hpaths
  obtain rfl := finds_inj h hfinds hfinds' hpaths
  rw [hread] at hread'
  rw [Option.some.inj hread']

/-- **No two identifiers want one key**, if their ids are different. -/
theorem keyed_identifierItems {c : Corpus} (hids : (c.identifiers.map Identifier.id).Nodup) :
    Cache.Keyed c.identifierItems := by
  intro i hi j hj hkey
  obtain ⟨a, ha, rfl⟩ := List.mem_map.mp hi
  obtain ⟨b, hb, rfl⟩ := List.mem_map.mp hj
  rw [List.inj_on_of_nodup_map hids ha hb (CacheKey.identifier_inj hkey)]

/-- A build keeps the keys of its documents. -/
theorem keepsFile_key {c : Corpus} {document : Document} (h : document ∈ c.documents) :
    c.keepsFile document.item.key = true :=
  List.any_eq_true.mpr ⟨document, h, beq_self_eq_true _⟩

/-- A build keeps the keys of its identifiers. -/
theorem keepsIdentifier_key {c : Corpus} {i : Identifier} (h : i ∈ c.identifiers) :
    c.keepsIdentifier i.item.key = true := by
  rw [Corpus.keepsIdentifier, Identifier.item, CacheKey.callSitePath?_identifier]
  exact List.any_eq_true.mpr ⟨i, h, beq_self_eq_true _⟩

/-! ## What a refresh does to a file -/

section Changes

variable {rels : List String} {bytes : ByteArray}

/-- The items of documents that a refresh fills in. -/
theorem mem_changes_files {i : Item} : i ∈ (ix.changes d rels).files ↔
    ∃ name ∈ rels, ∃ document, (ix.readNamed d name).document? = some document ∧
      document.item = i := by
  simp [changes, Changes.ofReadings, List.mem_filterMap]

/-- The items of identifiers that a refresh fills in. -/
theorem mem_changes_identifiers {i : Item} : i ∈ (ix.changes d rels).identifiers ↔
    ∃ name ∈ rels, ∃ a ∈ (ix.readNamed d name).identifiers, a.item = i := by
  simp [changes, Changes.ofReadings, List.mem_flatMap]

/-- Only files that a refresh is told of lose their keys. -/
theorem mem_of_mem_removed {name : String} (h : name ∈ (ix.changes d rels).removed) :
    name ∈ rels := by
  obtain ⟨⟨name', reading⟩, hmem, hname⟩ := List.mem_filterMap.mp h
  obtain ⟨rel, hrel, heq⟩ := List.mem_map.mp hmem
  obtain ⟨rfl, -⟩ := Prod.mk.inj heq
  dsimp only at hname
  split_ifs at hname
  exact Option.some.inj hname ▸ hrel

/-- A refresh fills in the item, and no other item wants its key. -/
structure Renews (items : List Item) (i : Item) : Prop where
  /-- it is filled in -/
  mem : i ∈ items
  /-- its key is its own -/
  only : ∀ j ∈ items, j.key = i.key → j = i

/-- A refresh leaves the key of the item alone. -/
structure Spares (removed : List String) (items : List Item) (i : Item) : Prop where
  /-- no item that is filled in wants it -/
  filled : ∀ j ∈ items, j.key ≠ i.key
  /-- it belongs to no file that is removed -/
  removed : ∀ name ∈ removed, belongsTo i.key name = false

/-- A document of a file that a refresh is told of is filled in. -/
theorem renews_document (h : d.Rooted ix.root origin aside)
    (hfinds : d.Finds (ix.rules d) ix.root origin names bytes) (hrel : ofComponents names ∈ rels)
    {document : Document} (hread : (ix.readAt d names).document? = some document) :
    Renews (ix.changes d rels).files document.item := by
  have hnamed := readNamed_ofComponents h hfinds.ne_nil hfinds.file
  refine ⟨mem_changes_files.mpr ⟨_, hrel, document, by rw [hnamed, hread], rfl⟩,
    fun j hj hkey => ?_⟩
  obtain ⟨name, -, document', hread', rfl⟩ := mem_changes_files.mp hj
  have hpath := (named_read ix d _ _).path document hread
  have hpath' := (named_readNamed ix d name).path document' hread'
  have hpaths : document'.path = document.path := hkey
  rw [hpath, hpath'] at hpaths
  rw [hpaths, hnamed, hread] at hread'
  rw [Option.some.inj hread']

/-- A document of another file is spared. -/
theorem spares_document (h : d.Rooted ix.root origin aside) (hunseen : Unseen ix.root origin aside)
    (hfinds : d.Finds (ix.rules d) ix.root origin names bytes) (hrel : ofComponents names ∉ rels)
    {document : Document} (hread : (ix.readAt d names).document? = some document) :
    Spares (ix.changes d rels).removed (ix.changes d rels).files document.item := by
  have hpath := (named_read ix d _ _).path document hread
  refine ⟨fun j hj hkey => hrel ?_, fun name hname => ?_⟩
  · obtain ⟨name, hname, document', hread', rfl⟩ := mem_changes_files.mp hj
    have hpath' := (named_readNamed ix d name).path document' hread'
    have hpaths : document'.path = document.path := hkey
    rw [hpath, hpath'] at hpaths
    exact hpaths ▸ hname
  · rw [Document.item, hpath, Bool.eq_false_iff, Ne,
      belongsTo_file_iff (colon_notMem h hunseen hfinds)]
    rintro rfl
    exact hrel (mem_of_mem_removed hname)

/-- An identifier of a file that a refresh is told of is filled in. -/
theorem renews_identifier (h : d.Rooted ix.root origin aside)
    (hunseen : Unseen ix.root origin aside) (hcolon : ∀ name ∈ rels, ':' ∉ name.toList)
    (hids : ((ix.collect d).identifiers.map Identifier.id).Nodup)
    (hfinds : d.Finds (ix.rules d) ix.root origin names bytes) (hrel : ofComponents names ∈ rels)
    {i : Identifier} (hread : i ∈ (ix.readAt d names).identifiers) :
    Renews (ix.changes d rels).identifiers i.item := by
  have hnamed := readNamed_ofComponents h hfinds.ne_nil hfinds.file
  refine ⟨mem_changes_identifiers.mpr ⟨_, hrel, i, by rwa [hnamed], rfl⟩, fun j hj hkey => ?_⟩
  obtain ⟨name, hname, a, ha, rfl⟩ := mem_changes_identifiers.mp hj
  -- one id, so one file, and in one tree it is one identifier
  have hid : a.id = i.id := CacheKey.identifier_inj hkey
  have hsame : ofComponents names = name :=
    eq_of_ids (colon_notMem h hunseen hfinds) (hcolon name hname)
      ((named_read ix d _ _).ids i hread) (hid ▸ (named_readNamed ix d name).ids a ha)
  rw [← hsame, hnamed] at ha
  have hi := (mem_identifiers h hunseen).mpr ⟨names, bytes, hfinds, hread⟩
  have ha' := (mem_identifiers h hunseen).mpr ⟨names, bytes, hfinds, ha⟩
  rw [List.inj_on_of_nodup_map hids ha' hi hid]

/-- An identifier of another file is spared. -/
theorem spares_identifier (h : d.Rooted ix.root origin aside)
    (hunseen : Unseen ix.root origin aside) (hcolon : ∀ name ∈ rels, ':' ∉ name.toList)
    (hfinds : d.Finds (ix.rules d) ix.root origin names bytes) (hrel : ofComponents names ∉ rels)
    {i : Identifier} (hread : i ∈ (ix.readAt d names).identifiers) :
    Spares (ix.changes d rels).removed (ix.changes d rels).identifiers i.item := by
  have hplain := colon_notMem h hunseen hfinds
  have hid := (named_read ix d _ _).ids i hread
  refine ⟨fun j hj hkey => hrel ?_, fun name hname => ?_⟩
  · obtain ⟨name, hname, a, ha, rfl⟩ := mem_changes_identifiers.mp hj
    have hsame : a.id = i.id := CacheKey.identifier_inj hkey
    rw [eq_of_ids hplain (hcolon name hname) hid (hsame ▸ (named_readNamed ix d name).ids a ha)]
    exact hname
  · obtain ⟨rest, hrest⟩ := hid
    have hname' := mem_of_mem_removed hname
    rw [Identifier.item, Bool.eq_false_iff, Ne,
      belongsTo_identifier_iff hrest hplain (hcolon name hname')]
    rintro rfl
    exact hrel hname'

end Changes

end Indexer

end CodeAtlas
