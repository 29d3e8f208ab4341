import CodeAtlas.Proofs.Index.Alignment
import CodeAtlas.Proofs.Index.Refresh

/-!
# What a refresh takes for whose

Setup: a refresh is told of some names. It drops the keys that belong to a name that gives nothing
any more, and fills in the items of the others. A file has keys of three shapes (`KeyOf`), and all
of them belong to its name (`belongsTo_of_keyOf`). The keys of other files do not, as long as there
are no colons in names. With colons they may: the key of an identifier is read from the front, so
all that comes behind a name and a colon is taken for the name and the line of a symbol, while the
key of a call site is read from the back. `Mistaken` lists the keys of one file that are taken for
those of another, and `belongsTo_iff_mistaken` says that there are no more.

* **`Indexer.refresh_keys`** — what a refresh leaves under each key: nothing under the keys of files
  that give nothing any more; what was there under the keys of files that it was not told of, unless
  they are mistaken; and without colons no key is mistaken.
-/

namespace CodeAtlas

open CodeAtlas.Text

variable {σ : Type}

/-! ## Reading keys -/

/-- The text before the last colon, and the text behind it. -/
theorem beforeLastColon_eq_some_iff {cs before : List Char} :
    CacheKey.beforeLastColon cs = some before ↔
      ∃ after, ':' ∉ after ∧ cs = before ++ ':' :: after := by
  constructor
  · intro h
    have hsplit :=
      List.takeWhile_append_dropWhile (p := fun c => decide (c ≠ ':')) (l := cs.reverse)
    rw [CacheKey.beforeLastColon] at h
    split at h
    · cases h
    · next c rest hdrop =>
      obtain rfl := Option.some.inj h
      have hcolon : c = ':' := by
        have hhead := List.head?_dropWhile_not (fun c => decide (c ≠ ':')) cs.reverse
        rw [hdrop] at hhead
        simpa using hhead
      subst hcolon
      refine ⟨(cs.reverse.takeWhile (· ≠ ':')).reverse, fun hmem => ?_, ?_⟩
      · have hne := List.mem_takeWhile_imp (List.mem_reverse.mp hmem)
        simp at hne
      · rw [hdrop] at hsplit
        rw [← List.reverse_inj, List.reverse_append, List.reverse_cons, List.reverse_reverse,
          List.reverse_reverse, List.append_assoc]
        exact hsplit.symm
  · rintro ⟨after, hafter, rfl⟩
    have hdrop : (before ++ ':' :: after).reverse.dropWhile (· ≠ ':') = ':' :: before.reverse := by
      rw [List.reverse_append, List.reverse_cons, List.append_assoc, List.dropWhile_append_of_pos]
      · simp
      · intro c hc
        rw [decide_eq_true_eq]
        rintro rfl
        exact hafter (List.mem_reverse.mp hc)
    rw [CacheKey.beforeLastColon, hdrop]
    simp

/-- Which keys are read as those of call sites in a file. -/
theorem callSitePath?_eq_some_iff {key path : String} : CacheKey.callSitePath? key = some path ↔
    ∃ line, ':' ∉ line ∧
      key.toList = CacheKey.callSiteMark.toList ++ (path.toList ++ ':' :: line) := by
  rw [CacheKey.callSitePath?]
  constructor
  · intro h
    split at h
    · cases h
    · next rest hrest =>
      obtain ⟨before, hbefore, rfl⟩ := Option.map_eq_some_iff.mp h
      obtain ⟨line, hline, rfl⟩ := beforeLastColon_eq_some_iff.mp hbefore
      exact ⟨line, hline, by rw [Path.dropLead?_eq_some_iff.mp hrest, String.toList_ofList]⟩
  · rintro ⟨line, hline, hkey⟩
    have hbefore : CacheKey.beforeLastColon (path.toList ++ ':' :: line) = some path.toList :=
      beforeLastColon_eq_some_iff.mpr ⟨line, hline, rfl⟩
    rw [hkey, Path.dropLead?_append]
    simp only [hbefore, Option.map_some, String.ofList_toList]

/-- **Which keys belong to a name**: the name, what is read as a call site in it, and whatever goes
on with a colon behind the mark of identifiers and the name. -/
theorem belongsTo_iff {key name : String} : belongsTo key name = true ↔
    key = name ∨
      (∃ line, ':' ∉ line ∧
        key.toList = CacheKey.callSiteMark.toList ++ (name.toList ++ ':' :: line)) ∨
      ∃ rest, key.toList = CacheKey.identifierMark.toList ++ (name.toList ++ ':' :: rest) := by
  rw [belongsTo, Bool.or_eq_true, beq_iff_eq, ← callSitePath?_eq_some_iff]
  refine or_congr_right ?_
  split
  · next path hpath =>
    have hnot :
        ¬∃ rest, key.toList = CacheKey.identifierMark.toList ++ (name.toList ++ ':' :: rest) := by
      rintro ⟨rest, hrest⟩
      obtain ⟨line, -, hkey⟩ := callSitePath?_eq_some_iff.mp hpath
      -- the marks start with different letters
      rw [hkey] at hrest
      exact absurd (List.cons.inj hrest).1 (by decide)
    simp [hpath, hnot]
  · next hnone =>
    have hnot : ¬CacheKey.callSitePath? key = some name := by simp [hnone]
    simp only [hnot, false_or]
    constructor
    · intro h
      split at h
      · next tail htail =>
        obtain ⟨id, hid, htail⟩ := Option.bind_eq_some_iff.mp htail
        obtain ⟨ids, hids, rfl⟩ := Option.map_eq_some_iff.mp hid
        obtain ⟨rest, hrest, rfl⟩ := Option.map_eq_some_iff.mp htail
        rw [String.toList_ofList] at h hrest
        obtain ⟨more, rfl⟩ := List.head?_eq_some_iff.mp (of_decide_eq_true h)
        exact ⟨more,
          by rw [Path.dropLead?_eq_some_iff.mp hids, Path.dropLead?_eq_some_iff.mp hrest]⟩
      · cases h
    · rintro ⟨rest, hrest⟩
      have htail : ((dropStart? key CacheKey.identifierMark).bind fun id => dropStart? id name) =
          some (String.ofList (':' :: rest)) := by
        rw [dropStart?, hrest, Path.dropLead?_append, Option.map_some, Option.bind_some, dropStart?,
          String.toList_ofList, Path.dropLead?_append, Option.map_some]
      rw [htail]
      simp

/-! ## The keys of files -/

/-- The keys of a file: its own one, those of its identifiers, and those of call sites in it. -/
inductive KeyOf (file : String) : String → Prop
  /-- its own key -/
  | file : KeyOf file (CacheKey.file file)
  /-- the key of an identifier -/
  | identifier (entry : SymbolEntry) : KeyOf file (CacheKey.identifier (Identifier.idOf file entry))
  /-- the key of a call site -/
  | callSite (line : Nat) : KeyOf file (CacheKey.callSite file line)

/-- **A file's keys belong to its name.** -/
theorem belongsTo_of_keyOf {file key : String} (h : KeyOf file key) :
    belongsTo key file = true := by
  rw [belongsTo_iff]
  cases h with
  | file => exact .inl rfl
  | identifier entry =>
    obtain ⟨rest, hrest⟩ := Identifier.toList_idOf file entry
    refine .inr (.inr ⟨rest, ?_⟩)
    rw [CacheKey.toList_identifier, hrest]
    rfl
  | callSite line =>
    refine .inr (.inl ⟨Nat.toDigits 10 line, Decimal.notMem_toDigits (by decide) line, ?_⟩)
    exact CacheKey.toList_callSite file line

/-- The keys of a file that are taken for keys of another name. -/
inductive Mistaken (name file : String) : String → Prop
  /-- the other name is the key -/
  | key {key : String} (same : name = key) : Mistaken name file key
  /-- the file is called like the key of an identifier -/
  | identifierFile (rest : String) (called : file = CacheKey.identifier (name ++ ":" ++ rest)) :
      Mistaken name file (CacheKey.file file)
  /-- the file is called like the key of a call site -/
  | callSiteFile (rest : String) (last : ':' ∉ rest.toList)
      (called : file = CacheKey.callSiteMark ++ name ++ ":" ++ rest) :
      Mistaken name file (CacheKey.file file)
  /-- the id starts with the other name and a colon -/
  | identifier (entry : SymbolEntry) (rest : String)
      (starts : Identifier.idOf file entry = name ++ ":" ++ rest) :
      Mistaken name file (CacheKey.identifier (Identifier.idOf file entry))

/-- A text that goes on behind a name and a colon. -/
theorem eq_append_colon_iff {text name : String} {rest : List Char} :
    text.toList = name.toList ++ ':' :: rest ↔ text = name ++ ":" ++ String.ofList rest := by
  rw [← String.toList_inj]
  simp

/-- A mistaken key belongs to the other name. -/
theorem Mistaken.belongsTo {name file key : String} (h : Mistaken name file key) :
    CodeAtlas.belongsTo key name = true := by
  rw [belongsTo_iff]
  cases h with
  | key same => exact .inl same.symm
  | identifierFile rest called =>
    refine .inr (.inr ⟨rest.toList, ?_⟩)
    rw [CacheKey.file, called, CacheKey.toList_identifier]
    simp [CacheKey.identifierMark]
  | callSiteFile rest last called =>
    refine .inr (.inl ⟨rest.toList, last, ?_⟩)
    rw [CacheKey.file, called]
    simp
  | identifier entry rest starts =>
    refine .inr (.inr ⟨rest.toList, ?_⟩)
    rw [CacheKey.identifier, String.toList_append, starts]
    simp

/-- A key of a file that belongs to another name is mistaken. -/
theorem mistaken_of_belongsTo {name file key : String} (hne : name ≠ file) (h : KeyOf file key)
    (hbelongs : belongsTo key name = true) : Mistaken name file key := by
  rcases belongsTo_iff.mp hbelongs with hkey | ⟨line, hline, hkey⟩ | ⟨rest, hkey⟩
  · exact .key hkey.symm
  · cases h with
    | file =>
      refine .callSiteFile (String.ofList line) (by rwa [String.toList_ofList]) ?_
      rw [← String.toList_inj]
      simpa [CacheKey.file] using hkey
    | identifier entry =>
      rw [CacheKey.toList_identifier] at hkey
      exact absurd (List.cons.inj hkey).1 (by decide)
    | callSite line' =>
      -- the line stands behind the last colon, so the paths are the same
      have hpath := callSitePath?_eq_some_iff.mpr ⟨line, hline, hkey⟩
      have hself := callSitePath?_eq_some_iff.mpr
        ⟨_, Decimal.notMem_toDigits (by decide) line', CacheKey.toList_callSite file line'⟩
      exact absurd (Option.some.inj (hpath.symm.trans hself)) hne
  · cases h with
    | file =>
      refine .identifierFile (String.ofList rest) ?_
      rw [← String.toList_inj, CacheKey.identifier]
      simpa [CacheKey.file] using hkey
    | identifier entry =>
      rw [CacheKey.identifier, String.toList_append, List.append_cancel_left_eq] at hkey
      exact .identifier entry _ (eq_append_colon_iff.mp hkey)
    | callSite line =>
      rw [CacheKey.toList_callSite] at hkey
      exact absurd (List.cons.inj hkey).1 (by decide)

/-- **Which keys of a file are taken for keys of another name.** -/
theorem belongsTo_iff_mistaken {name file key : String} (hne : name ≠ file) (h : KeyOf file key) :
    belongsTo key name = true ↔ Mistaken name file key :=
  ⟨mistaken_of_belongsTo hne h, Mistaken.belongsTo⟩

/-- **Without colons no key is mistaken.** -/
theorem not_mistaken {name file key : String} (hne : name ≠ file) (hname : ':' ∉ name.toList)
    (hfile : ':' ∉ file.toList) (h : KeyOf file key) : ¬Mistaken name file key := by
  intro hmistaken
  cases hmistaken with
  | key same =>
    subst same
    cases h with
    | file => exact hne rfl
    | identifier entry =>
      rw [CacheKey.toList_identifier] at hname
      simp at hname
    | callSite line =>
      rw [CacheKey.toList_callSite] at hname
      simp at hname
  | identifierFile rest called =>
    rw [called, CacheKey.toList_identifier] at hfile
    simp at hfile
  | callSiteFile rest last called =>
    rw [called] at hfile
    simp at hfile
  | identifier entry rest starts =>
    refine hne (eq_of_ids hname hfile ⟨rest.toList, ?_⟩ (Identifier.toList_idOf file entry))
    rw [starts]
    simp

/-! ## What a refresh leaves -/

/-- A file without a document has no identifiers. -/
theorem FileReading.identifiers_of_document? {r : FileReading} (h : r.document? = none) :
    r.identifiers = [] := by
  cases r with
  | code document identifiers source => cases h
  | text document => cases h
  | skipped => rfl

namespace Indexer

variable {ix : Indexer σ} {names : List String} {w w' : World σ} {d : Disk} {home : Place}

/-- The names that give nothing any more. -/
theorem mem_removed_iff {name : String} : name ∈ (ix.changes d names).removed ↔
    name ∈ names ∧ (ix.readNamed d name).document? = none := by
  simp only [changes, Changes.ofReadings, List.mem_filterMap, List.mem_map,
    Option.isNone_iff_eq_none]
  constructor
  · rintro ⟨_, ⟨name', hname', rfl⟩, hif⟩
    split_ifs at hif with hnone
    obtain rfl := Option.some.inj hif
    exact ⟨hname', hnone⟩
  · rintro ⟨hname, hnone⟩
    exact ⟨_, ⟨name, hname, rfl⟩, if_pos hnone⟩

/-- **Without colons no item takes the key of a file that gives no items.** -/
theorem key_ne_of_mem_items (hnames : ∀ name ∈ names, ':' ∉ name.toList) {file key : String}
    (hfile : ':' ∉ file.toList) (hkey : KeyOf file key)
    (hnothing : file ∈ names → (ix.readNamed d file).document? = none) (kind : CacheKind) :
    ∀ i ∈ (ix.changes d names).items kind, i.key ≠ key := by
  rintro i hi rfl
  cases kind with
  | files =>
    obtain ⟨name, hname, document, hread, rfl⟩ := mem_changes_files.mp hi
    have hpath : document.item.key = name := (named_readNamed ix d name).path document hread
    have hcolon := hnames name hname
    rw [hpath] at hkey
    cases hkey with
    | file =>
      rw [CacheKey.file, hnothing hname] at hread
      cases hread
    | identifier entry =>
      rw [CacheKey.toList_identifier] at hcolon
      simp at hcolon
    | callSite line =>
      rw [CacheKey.toList_callSite] at hcolon
      simp at hcolon
  | identifiers =>
    obtain ⟨name, hname, a, ha, rfl⟩ := mem_changes_identifiers.mp hi
    have hid := (named_readNamed ix d name).ids a ha
    generalize hsame : a.item.key = key at hkey
    cases hkey with
    | file =>
      rw [← show a.item.key = file from hsame, Identifier.item, CacheKey.toList_identifier] at hfile
      simp at hfile
    | identifier entry =>
      rw [CacheKey.identifier_inj hsame] at hid
      obtain rfl := eq_of_ids (hnames name hname) hfile hid (Identifier.toList_idOf file entry)
      rw [FileReading.identifiers_of_document? (hnothing hname)] at ha
      cases ha
    | callSite line =>
      have hlists := congrArg String.toList hsame
      rw [Identifier.item, CacheKey.toList_identifier, CacheKey.toList_callSite] at hlists
      exact absurd (List.cons.inj hlists).1 (by decide)

/-- The refresh of one cache leaves alone what belongs to no removed name, except under the keys of
the items that are filled in. -/
theorem refreshCache_leaves {kind : CacheKind} {removed : List String} {items : List Item}
    {result : Nat × Nat} (h : ix.refreshCache kind removed items w = .ok result w') :
    ∃ saved : Cache, w'.disk = ix.savedCache kind saved w.disk ∧
      ∀ key, (∀ i ∈ items, i.key ≠ key) → saved[key]? =
        if removed.any (belongsTo key) then none else (ix.store.load kind w.disk)[key]? := by
  rcases ix.refreshCache_cases kind removed items w with ⟨filled, s, hfill, hrefresh⟩ |
    ⟨e, s, hrefresh⟩
  · rw [hrefresh] at h
    cases h
    refine ⟨filled.cache, rfl, fun key hkey => ?_⟩
    obtain ⟨answers, -, rfl⟩ := Cache.fill_eq_ok_iff.mp hfill
    rw [Cache.filled, Cache.getElem?_learnAll_of_forall_ne, Cache.getElem?_prune]
    · cases removed.any (belongsTo key) <;> rfl
    · intro answer hanswer
      exact hkey answer.1 (List.mem_of_mem_filter (List.of_mem_zip hanswer).1)
  · rw [hrefresh] at h
    cases h

/-- A refresh leaves both caches like this. -/
theorem refresh_leaves {outcome : RefreshOutcome} (hopens : ix.store.Opens w.disk d home)
    (h : ix.refresh names w = .ok outcome w') :
    ∃ saved : CacheKind → Cache,
      (∀ kind, ix.store.load kind w'.disk = (Cache.ofText? (saved kind).text).getD ∅) ∧
      ∀ kind key, (∀ i ∈ (ix.changes w.disk names).items kind, i.key ≠ key) →
        (saved kind)[key]? = if (ix.changes w.disk names).removed.any (belongsTo key) then none
          else (ix.store.load kind w.disk)[key]? := by
  rw [refresh_apply] at h
  simp only [bind, EStateM.bind] at h
  split at h
  · next files w₁ hfiles =>
    split at h
    · next identifiers w₂ hidentifiers =>
      cases h
      obtain ⟨c, hc, hfiles⟩ := refreshCache_leaves hfiles
      obtain ⟨c', hc', hidentifiers⟩ := refreshCache_leaves hidentifiers
      obtain ⟨hfirst, hsecond, hbefore, hafter⟩ := written_savedCaches hopens hc hc'
      rw [hbefore] at hidentifiers
      refine ⟨CacheKind.select c c', fun kind => ?_, fun kind => ?_⟩
      · cases kind with
        | files => exact hafter.trans hfirst.loaded
        | identifiers => exact hsecond.loaded
      · cases kind with
        | files => exact hfiles
        | identifiers => exact hidentifiers
    · cases h
  · cases h

/-- **What a refresh leaves under the keys of files.** The keys of a file belong to its name, and to
another name exactly when they are mistaken for keys of it. A refresh that succeeds saves two
caches. Under a key of a file, unless an item with this key is filled in, there is nothing if the
refresh was told of the file and the file gives nothing any more; and if it was not told of the
file, there is nothing if the key is mistaken for one of a name that gives nothing any more, and
otherwise what was there before. If there are no colons in the names and in the path of the file, no
key is mistaken and no item is in the way. -/
theorem refresh_keys {outcome : RefreshOutcome} (hopens : ix.store.Opens w.disk d home)
    (h : ix.refresh names w = .ok outcome w') :
    (∀ file key, KeyOf file key → belongsTo key file = true) ∧
    (∀ name file key, name ≠ file → KeyOf file key →
      (belongsTo key name = true ↔ Mistaken name file key)) ∧
    let changes := ix.changes w.disk names
    ∃ saved : CacheKind → Cache,
      (∀ kind, ix.store.load kind w'.disk = (Cache.ofText? (saved kind).text).getD ∅) ∧
      (∀ kind file key, KeyOf file key → (∀ i ∈ changes.items kind, i.key ≠ key) →
        (file ∈ names → (ix.readNamed w.disk file).document? = none → (saved kind)[key]? = none) ∧
        (file ∉ names → (∃ name ∈ changes.removed, Mistaken name file key) →
          (saved kind)[key]? = none) ∧
        (file ∉ names → (∀ name ∈ changes.removed, ¬Mistaken name file key) →
          (saved kind)[key]? = (ix.store.load kind w.disk)[key]?)) ∧
      ((∀ name ∈ names, ':' ∉ name.toList) → ∀ kind file key, ':' ∉ file.toList → KeyOf file key →
        (file ∈ names → (ix.readNamed w.disk file).document? = none → (saved kind)[key]? = none) ∧
        (file ∉ names → (saved kind)[key]? = (ix.store.load kind w.disk)[key]?)) := by
  refine ⟨fun file key => belongsTo_of_keyOf, fun name file key => belongsTo_iff_mistaken, ?_⟩
  intro changes
  obtain ⟨saved, hloaded, hleaves⟩ := refresh_leaves hopens h
  -- a name of which the refresh was told is none of the others
  have hne {name file : String} (hname : name ∈ changes.removed) (hfile : file ∉ names) :
      name ≠ file := by
    rintro rfl
    exact hfile (mem_of_mem_removed hname)
  have hgone {kind : CacheKind} {file key : String} (hkey : KeyOf file key)
      (hfree : ∀ i ∈ changes.items kind, i.key ≠ key) (hfile : file ∈ names)
      (hnone : (ix.readNamed w.disk file).document? = none) : (saved kind)[key]? = none := by
    rw [hleaves kind key hfree, if_pos]
    exact List.any_eq_true.mpr ⟨file, mem_removed_iff.mpr ⟨hfile, hnone⟩, belongsTo_of_keyOf hkey⟩
  have hkept {kind : CacheKind} {file key : String} (hkey : KeyOf file key)
      (hfree : ∀ i ∈ changes.items kind, i.key ≠ key) (hfile : file ∉ names)
      (hright : ∀ name ∈ changes.removed, ¬Mistaken name file key) :
      (saved kind)[key]? = (ix.store.load kind w.disk)[key]? := by
    rw [hleaves kind key hfree, if_neg]
    intro hany
    obtain ⟨name, hname, hbelongs⟩ := List.any_eq_true.mp hany
    exact hright name hname ((belongsTo_iff_mistaken (hne hname hfile) hkey).mp hbelongs)
  refine ⟨saved, hloaded, fun kind file key hkey hfree => ⟨hgone hkey hfree, ?_, hkept hkey hfree⟩,
    fun hnames kind file key hcolon hkey => ⟨fun hfile hnone => ?_, fun hfile => ?_⟩⟩
  · rintro hfile ⟨name, hname, hmistaken⟩
    rw [hleaves kind key hfree, if_pos]
    exact List.any_eq_true.mpr
      ⟨name, hname, (belongsTo_iff_mistaken (hne hname hfile) hkey).mpr hmistaken⟩
  · exact hgone hkey (key_ne_of_mem_items hnames hcolon hkey (fun _ => hnone) kind) hfile hnone
  · refine hkept hkey (key_ne_of_mem_items hnames hcolon hkey (absurd · hfile) kind) hfile ?_
    intro name hname
    exact not_mistaken (hne hname hfile) (hnames name (mem_of_mem_removed hname)) hcolon hkey

/-- With an embedder that always gives the same, a refresh succeeds. -/
theorem exists_refresh {g : String → Option Embedding} (hg : ix.batching.Gives ix.provider g)
    (names : List String) (w : World σ) : ∃ outcome w', ix.refresh names w = .ok outcome w' := by
  have hrefresh (kind : CacheKind) (removed : List String) (items : List Item) (w : World σ) :
      ∃ outcome w', ix.refreshCache kind removed items w = .ok outcome w' := by
    obtain ⟨outcome, s, houtcome⟩ := refreshCache_eq hg kind removed items w
    exact ⟨outcome, _, houtcome⟩
  obtain ⟨files, w₁, hfiles⟩ := hrefresh .files (ix.changes w.disk names).removed
    (ix.changes w.disk names).files w
  obtain ⟨identifiers, w₂, hidentifiers⟩ := hrefresh .identifiers (ix.changes w.disk names).removed
    (ix.changes w.disk names).identifiers w₁
  simp only [refresh_apply, bind, EStateM.bind, hfiles, hidentifiers]
  exact ⟨_, _, rfl⟩

/-- A file that is in no known language and is no text gives nothing, whether it is there or not. -/
theorem readNamed_of_unknown {name : String}
    (hlanguage : Language.ofPath? (ix.root.absolute name) = none)
    (htext : isTextDocument (ix.root.absolute name) = false) : ix.readNamed d name = .skipped := by
  rw [readNamed, read, hlanguage, htext]
  simp

end Indexer

/-! ## A symbol of another file -/

/-- A symbol in the first line. -/
def symbolOne : SymbolEntry := { (default : SymbolEntry) with name := "x", line := 1 }

/-- The key of such a symbol in a file whose path has a colon. -/
def colonKey : String := CacheKey.identifier (Identifier.idOf "a:b.py" symbolOne)

/-- A cache of identifiers with this key. -/
def colonCache : Cache := (∅ : Cache).insert colonKey ⟨"", #[1.0]⟩

/-- A disk with this cache. -/
def colonDisk : Disk := (constantIndexer #[1.0]).savedCache .identifiers colonCache cachesOnly

theorem saved_colonDisk : (constantIndexer #[1.0]).store.Saved ["caches"] .identifiers colonCache
    cachesOnly colonDisk := by
  refine Indexer.saved_savedCache .identifiers (settled_cachesOnly #[1.0]).opens ?_
  intro key entry hkey
  rw [colonCache, Std.TreeMap.getElem?_insert] at hkey
  split_ifs at hkey
  · cases hkey
    exact Embedding.storable_one
  · simp at hkey

/-- A refresh that is told of a file that is not there drops a key of another file. -/
theorem Indexer.refresh_keys_colon : ∃ outcome w' saved,
    (constantIndexer #[1.0]).refresh ["a"] ⟨colonDisk, ()⟩ = .ok outcome w' ∧
      KeyOf "a:b.py" colonKey ∧
      ((constantIndexer #[1.0]).store.load .identifiers colonDisk)[colonKey]? = some ⟨"", #[1.0]⟩ ∧
      (constantIndexer #[1.0]).store.load .identifiers w'.disk =
        (Cache.ofText? (saved : Cache).text).getD ∅ ∧
      saved[colonKey]? = none := by
  have hskipped : (constantIndexer #[1.0]).readNamed colonDisk "a" = .skipped :=
    readNamed_of_unknown (by decide) (by decide)
  have hfree : ∀ i ∈ ((constantIndexer #[1.0]).changes colonDisk ["a"]).items .identifiers,
      i.key ≠ colonKey := by
    intro i hi
    obtain ⟨name, hname, a, ha, -⟩ := mem_changes_identifiers.mp hi
    rw [List.mem_singleton.mp hname, hskipped] at ha
    cases ha
  have hremoved : "a" ∈ ((constantIndexer #[1.0]).changes colonDisk ["a"]).removed :=
    mem_removed_iff.mpr ⟨List.mem_singleton_self _, by rw [hskipped]; rfl⟩
  have hkey : KeyOf "a:b.py" colonKey := .identifier symbolOne
  have hmistaken : Mistaken "a" "a:b.py" colonKey := .identifier symbolOne "b.py:x:1" (by decide)
  obtain ⟨outcome, w', hrefresh⟩ := exists_refresh
    (Provider.gives_giving (fun _ => #[1.0]) (constantIndexer #[1.0]).batching) ["a"]
      ⟨colonDisk, ()⟩
  obtain ⟨-, -, saved, hloaded, hkeys, -⟩ := refresh_keys saved_colonDisk.settled.opens hrefresh
  refine ⟨outcome, w', saved .identifiers, hrefresh, hkey, ?_, hloaded .identifiers,
    (hkeys .identifiers "a:b.py" colonKey hkey hfree).2.1 (by decide) ⟨"a", hremoved, hmistaken⟩⟩
  rw [saved_colonDisk.loaded.getElem?_eq, colonCache, Std.TreeMap.getElem?_insert_self]

end CodeAtlas
