import CodeAtlas.Proofs.Index.Alignment
import CodeAtlas.Proofs.Symbol.Conservation

/-!
# When ids collide

Setup: the id of an identifier is made of the path of its file, the name of the symbol and its line.
Paths are distinct and have no colon, so an id tells all three (`Identifier.idOf_inj`), and no two
files ever share one. Within a file ids are distinct exactly when no name is declared twice on one
line, and nothing keeps a source file from doing that: `x = 1; x = 2` declares `x` twice.

**`Indexer.keys_nodup_iff`** says both this and what follows for the cache. Two identifiers with one
key and different texts push each other out of it, so no build from such a corpus ever finds all its
identifiers in the cache.

What a file declares is what the nodes of its parse tree declare (**`Analysis.marks_perm`**), since
no declaration is lost on the way.
-/

namespace CodeAtlas

open CodeAtlas.Fingerprint (contentHash)

variable {σ : Type}

/-! ## What an id tells -/

namespace Identifier

/-- The characters of an id. -/
theorem toList_idOf_eq (path : String) (entry : SymbolEntry) : (idOf path entry).toList =
    path.toList ++ ':' :: (entry.name.toList ++ ':' :: Nat.toDigits 10 entry.line) := by
  simp [idOf, toString]

/-- Within a file an id tells name and line. -/
theorem idOf_inj_of_path {path : String} {entry entry' : SymbolEntry} :
    idOf path entry = idOf path entry' ↔ entry.name = entry'.name ∧ entry.line = entry'.line := by
  constructor
  · intro h
    have hlists := congrArg String.toList h
    rw [toList_idOf_eq, toList_idOf_eq, List.append_cancel_left_eq, List.cons.injEq] at hlists
    obtain ⟨hname, hline⟩ := append_toDigits_inj hlists.2
    exact ⟨String.toList_inj.mp hname, hline⟩
  · rintro ⟨hname, hline⟩
    rw [idOf, idOf, hname, hline]

/-- **An id tells path, name and line**, if there is no colon in the path. -/
theorem idOf_inj {path path' : String} (hpath : ':' ∉ path.toList) (hpath' : ':' ∉ path'.toList)
    {entry entry' : SymbolEntry} : idOf path entry = idOf path' entry' ↔
      path = path' ∧ entry.name = entry'.name ∧ entry.line = entry'.line := by
  constructor
  · intro h
    obtain rfl : path = path' := eq_of_ids hpath hpath' ⟨_, toList_idOf_eq path entry⟩
      (h ▸ ⟨_, toList_idOf_eq path' entry'⟩)
    exact ⟨rfl, idOf_inj_of_path.mp h⟩
  · rintro ⟨rfl, h⟩
    exact idOf_inj_of_path.mpr h

end Identifier

/-! ## What a file declares -/

/-- The name and the line of a symbol. -/
def Symbol.mark (s : Symbol) : String × Nat :=
  (s.name, s.line)

/-- The names and lines of some symbols and of all below them. -/
def Symbol.marks (symbols : List Symbol) : List (String × Nat) :=
  (flatten symbols).map fun found => found.1.mark

/-- The names and lines of the symbols of a file. -/
def Analysis.marks (a : Analysis) : List (String × Nat) :=
  Symbol.marks a.symbols

/-- The names and lines of what nodes declare. -/
def Found.marks (f : Found) : List (String × Nat) :=
  Symbol.marks (f.placed ++ f.detached.map Prod.snd)

/-- Symbols with the same entries have the same names and lines. -/
theorem Symbol.marks_perm {symbols symbols' : List Symbol}
    (h : (entries symbols).Perm (entries symbols')) : (marks symbols).Perm (marks symbols') := by
  have hmarks (symbols : List Symbol) :
      marks symbols = (entries symbols).map fun e => (e.name, e.line) := by
    rw [marks, entries, List.map_map]
    rfl
  rw [hmarks, hmarks]
  exact h.map _

/-- **What a file declares is what the nodes of its tree declare.** -/
theorem Analysis.marks_perm (l : Language) (source : String) (root : ParseTree) :
    (Analysis.ofTree l source root).marks.Perm
      (Found.ofRoot l (Source.ofText source) root).marks :=
  Symbol.marks_perm (entries_declarations l (Source.ofText source) root)

/-! ## Corpora -/

/-- The keys of the identifiers of one file are distinct when no name is declared twice on a line.
-/
theorem nodup_ids_identifiersOf (path : String) (a : Analysis) :
    ((identifiersOf path a).map Identifier.id).Nodup ↔ a.marks.Nodup := by
  have hids : (identifiersOf path a).map Identifier.id =
      a.marks.map fun mark => Identifier.idOf path ⟨mark.1, default, mark.2, 0, ""⟩ := by
    rw [identifiersOf, Analysis.marks, Symbol.marks, List.map_map, List.map_map]
    rfl
  rw [hids]
  refine List.nodup_map_iff fun mark mark' h => ?_
  obtain ⟨hname, hline⟩ := Identifier.idOf_inj_of_path.mp h
  exact Prod.ext hname hline

/-- Identifiers of one file have its path in front of their ids. -/
theorem exists_rest_of_mem_identifiersOf {path : String} {a : Analysis} {i : Identifier}
    (h : i ∈ identifiersOf path a) : ∃ rest, i.id.toList = path.toList ++ ':' :: rest := by
  obtain ⟨⟨symbol, owner⟩, -, rfl⟩ := List.mem_map.mp h
  exact ⟨_, Identifier.toList_idOf_eq path symbol.entry⟩

namespace Corpus

variable {c : Corpus} {files : List (String × Analysis)}

/-- The keys of a corpus are distinct exactly when no file declares a name twice on one line. -/
theorem nodup_keys_iff (hids : c.identifiers = files.flatMap fun f => identifiersOf f.1 f.2)
    (hpaths : (files.map Prod.fst).Nodup) (hcolon : ∀ f ∈ files, ':' ∉ f.1.toList) :
    (c.identifierItems.map Item.key).Nodup ↔ ∀ f ∈ files, f.2.marks.Nodup := by
  have hkeys : c.identifierItems.map Item.key =
      (files.flatMap fun f => (identifiersOf f.1 f.2).map Identifier.id).map
        CacheKey.identifier := by
    rw [identifierItems, hids, List.map_map, List.map_flatMap, List.map_flatMap]
    simp only [List.map_map]
    rfl
  -- ids of different files start with different paths
  have hapart : files.Pairwise (Function.onFun List.Disjoint fun f =>
      (identifiersOf f.1 f.2).map Identifier.id) := by
    refine (List.pairwise_map.mp hpaths).imp_of_mem fun hf hg hne id hid hid' => hne ?_
    obtain ⟨i, hi, rfl⟩ := List.mem_map.mp hid
    obtain ⟨j, hj, heq⟩ := List.mem_map.mp hid'
    exact eq_of_ids (hcolon _ hf) (hcolon _ hg) (exists_rest_of_mem_identifiersOf hi)
      (heq ▸ exists_rest_of_mem_identifiersOf hj)
  rw [hkeys, List.nodup_map_iff fun _ _ => CacheKey.identifier_inj, List.nodup_flatMap]
  simp only [nodup_ids_identifiersOf, hapart, and_true]

end Corpus

/-- A cache does not know two items with one key whose texts have different hashes. -/
theorem Cache.exists_missing (m : Cache) {i j : Item} (hkey : i.key = j.key)
    (hhash : i.hash ≠ j.hash) :
    m.vector? i.key i.hash = none ∨ m.vector? j.key j.hash = none := by
  by_contra hfound
  rw [not_or] at hfound
  obtain ⟨v, hv⟩ := Option.ne_none_iff_exists'.mp hfound.1
  obtain ⟨u, hu⟩ := Option.ne_none_iff_exists'.mp hfound.2
  rw [vector?_eq_some] at hv hu
  rw [hkey, hu] at hv
  exact hhash (congrArg CacheEntry.hash (Option.some.inj hv)).symm

namespace Indexer

/-- A build counts as hits the identifiers that the cache knows. -/
theorem cacheHits_of_buildIdentifiers {ix : Indexer σ} {c : Corpus} {w w' : World σ}
    {index : IdentifierIndex} (h : ix.buildIdentifiers c w = .ok index w') :
    index.stats.cacheHits = (((ix.store.load .identifiers w.disk).found c.identifierItems).filter
      Option.isSome).length := by
  rw [buildIdentifiers_eq_map] at h
  obtain ⟨result, hpass, rfl⟩ := Work.exists_of_map_eq_ok h
  obtain ⟨answers, -, hresult⟩ := answers_of_pass hpass
  rw [identifierIndexOf, ← hresult]
  rfl

/-- **When the keys of identifiers are distinct, and what happens when they are not.** The keys of a
corpus are distinct exactly when no file declares a name twice on one line. Of two identifiers with
one id and different texts at most one is in the cache, so no build finds all its identifiers there.
-/
theorem keys_nodup_iff {c : Corpus} {files : List (String × Analysis)}
    (hids : c.identifiers = files.flatMap fun f => identifiersOf f.1 f.2)
    (hpaths : (files.map Prod.fst).Nodup) (hcolon : ∀ f ∈ files, ':' ∉ f.1.toList) :
    ((c.identifierItems.map Item.key).Nodup ↔ ∀ f ∈ files, f.2.marks.Nodup) ∧
      ∀ x ∈ c.identifiers, ∀ y ∈ c.identifiers, x.id = y.id →
        contentHash x.text ≠ contentHash y.text →
        ∀ (ix : Indexer σ) (w w' : World σ) (index : IdentifierIndex),
          ix.buildIdentifiers c w = .ok index w' →
            index.stats.cacheHits < c.identifiers.length := by
  refine ⟨Corpus.nodup_keys_iff hids hpaths hcolon, fun x hx y hy hid hhash ix w w' index h => ?_⟩
  have hlength : ((ix.store.load .identifiers w.disk).found c.identifierItems).length =
      c.identifiers.length := by
    rw [Cache.found, Corpus.identifierItems, List.length_map, List.length_map]
  rw [cacheHits_of_buildIdentifiers h, ← hlength]
  refine lt_of_le_of_ne (List.length_filter_le _ _) fun hall => ?_
  rw [List.length_filter_eq_length_iff] at hall
  have hknown (i : Identifier) (hi : i ∈ c.identifiers) :
      ((ix.store.load .identifiers w.disk).vector? i.item.key i.item.hash).isSome = true :=
    hall _ (List.mem_map_of_mem (List.mem_map_of_mem hi))
  rcases (ix.store.load .identifiers w.disk).exists_missing (i := x.item) (j := y.item)
    (congrArg CacheKey.identifier hid) hhash with hnone | hnone
  · have hsome := hknown x hx
    rw [hnone] at hsome
    cases hsome
  · have hsome := hknown y hy
    rw [hnone] at hsome
    cases hsome

/-- The identifiers of a corpus are those of source files that a walk finds, each read off the tree
that the parser gives of its text. -/
theorem exists_files_of_collect (ix : Indexer σ) (d : Disk) :
    ∃ files : List (String × Analysis),
      (ix.collect d).identifiers = files.flatMap (fun f => identifiersOf f.1 f.2) ∧
      (files.map Prod.fst).Sublist ((d.walk (ix.rules d) ix.root {}).map Reached.name) ∧
      ∀ f ∈ files, ∃ language source tree, ix.parser language source = some tree ∧
        f.2 = Analysis.ofTree language source tree := by
  have hread (name path : String) : (∃ language source tree,
      ix.parser language source = some tree ∧
        (ix.read d name path).identifiers =
          identifiersOf name (Analysis.ofTree language source tree)) ∨
      (ix.read d name path).identifiers = [] := by
    rcases ix.read_cases d name path with hskipped | ⟨source, htext⟩ |
      ⟨language, source, tree, htree, hcode⟩
    · exact .inr (by rw [hskipped]; rfl)
    · exact .inr (by rw [htext]; rfl)
    · exact .inl ⟨language, source, tree, htree, by rw [hcode]; rfl⟩
  rw [collect_eq, Corpus.ofReadings]
  dsimp only
  induction d.walk (ix.rules d) ix.root {} with
  | nil => exact ⟨[], rfl, .slnil, List.forall_mem_nil _⟩
  | cons found more ih =>
    obtain ⟨files, hfiles, hnames, htrees⟩ := ih
    rw [List.map_cons, List.map_cons, List.flatMap_cons, hfiles]
    rcases hread found.name found.path with ⟨language, source, tree, htree, hids⟩ | hnone
    · rw [hids]
      exact ⟨(found.name, _) :: files, rfl, hnames.cons_cons _,
        List.forall_mem_cons.mpr ⟨⟨language, source, tree, htree, rfl⟩, htrees⟩⟩
    · exact ⟨files, by rw [hnone, List.nil_append], hnames.cons _, htrees⟩

end Indexer

/-! ## A name declared twice on one line -/

/-- The tree of an assignment of a digit to a name of one letter, from some byte of the first line
on. -/
def assignmentAt (start : Nat) : ParseTree :=
  let node (kind : String) (field : Option String) (first last : Nat) (children : List ParseTree) :=
    ParseTree.node kind true field ⟨start + first, start + last, 0, 0⟩ children
  node "expression_statement" none 0 5 [node "assignment" none 0 5
    [node "identifier" (some "left") 0 1 [], node "integer" (some "right") 4 5 []]]

/-- What is known of a file with two assignments on its only line. -/
def assignedTwice : Analysis :=
  .ofTree .python "x = 1; x = 2\n"
    (.node "module" true none ⟨0, 13, 0, 1⟩ [assignmentAt 0, assignmentAt 7])

/-- A corpus of this file. -/
def assignedTwiceCorpus : Corpus :=
  { documents := []
    identifiers := identifiersOf "a.py" assignedTwice
    sources := ∅
    scanned := 1
    skipped := 0 }

/-- The file declares one name twice on its line. -/
theorem marks_assignedTwice : assignedTwice.marks = [("x", 1), ("x", 1)] := by cbv

/-- The two identifiers differ in nothing but the first lines of their declarations. -/
theorem identifiers_assignedTwice : assignedTwiceCorpus.identifiers =
    [.ofEntry "a.py" "" ⟨"x", .binding, 1, 1, "x = 1"⟩ none,
      .ofEntry "a.py" "" ⟨"x", .binding, 1, 1, "x = 2"⟩ none] := by cbv

/-- Of a file that declares `x` twice on its line there are two identifiers with one key, and every
build embeds at least one of them anew. -/
theorem Indexer.keys_nodup_iff_assignedTwice :
    ¬(assignedTwiceCorpus.identifierItems.map Item.key).Nodup ∧
      ∀ (ix : Indexer Unit) (w w' : World Unit) (index : IdentifierIndex),
        ix.buildIdentifiers assignedTwiceCorpus w = .ok index w' →
          index.stats.cacheHits < assignedTwiceCorpus.identifiers.length := by
  have hids : assignedTwiceCorpus.identifiers =
      [("a.py", assignedTwice)].flatMap fun f => identifiersOf f.1 f.2 := by
    rw [List.flatMap_singleton]
    rfl
  obtain ⟨hiff, hevicts⟩ := @keys_nodup_iff Unit _ _ hids (by decide) (by decide)
  constructor
  · intro hnodup
    have hmarks := hiff.mp hnodup _ List.mem_cons_self
    rw [marks_assignedTwice] at hmarks
    exact absurd hmarks (by decide)
  · rw [identifiers_assignedTwice] at hevicts ⊢
    exact hevicts _ List.mem_cons_self _ (List.mem_cons_of_mem _ List.mem_cons_self) rfl
      (by decide +kernel)

end CodeAtlas
