import CodeAtlas.Proofs.Disk.Grow
import CodeAtlas.Proofs.Index.Build
import CodeAtlas.Proofs.Index.Corpus

/-!
# The caches are no part of the tree

Setup: the caches are kept on the same disk as the tree that is indexed, often in a directory below
its root. `Indexer.Ready` says that they do not get in each other's way: a walk leaves the files of
the caches out, and no rules are read from them. Then saving a cache, whatever its vectors are,
changes nothing of what is collected, and the disk is ready again: **`Indexer.Ready.update`**.
-/

namespace CodeAtlas

open CodeAtlas.Disk CodeAtlas.Ignore CodeAtlas.Path
open CodeAtlas.CacheStore (Owns Beside)

variable {σ : Type} {ix : Indexer σ} {d d' : Disk} {origin home : Place}

/-- The files of the caches have plain names. -/
theorem CacheKind.backslash_notMem (kind : CacheKind) :
    '\\' ∉ kind.fileName.toList ∧ '\\' ∉ (kind.fileName ++ ".tmp").toList := by
  cases kind <;> decide

/-- A place of the caches is a file in their directory. -/
theorem CacheStore.Owns.exists_name {place : Place} (h : Owns home place) :
    ∃ name, place = home ++ [name] ∧ IsName name ∧ '\\' ∉ name.toList := by
  obtain ⟨kind, rfl | rfl⟩ := h
  · exact ⟨_, rfl, kind.isName_fileName, kind.backslash_notMem.1⟩
  · exact ⟨_, rfl, kind.isName_draft, kind.backslash_notMem.2⟩

/-! ## Disks that are rooted -/

/-- A root directory stays one while directories are made. -/
theorem Disk.Rooted.grow {root : Root} {aside : Place → Prop} (h : d.Rooted root origin aside)
    (hgrows : d.Grows d') (hsound : d'.Sound) : d'.Rooted root origin aside where
  sound := hsound
  absolute := h.absolute
  backslash := h.backslash
  found := hgrows.locate h.found
  isDirectory := hgrows.lookup_of_some h.isDirectory
  plain names bytes hfile :=
    h.plain names bytes
      ((hgrows.lookup_iff (show Entry.file bytes ≠ .directory from nofun)).mp hfile)

/-- A root directory stays one while files of the caches change. -/
theorem Disk.Rooted.beside {root : Root} (h : d.Rooted root origin (Owns home))
    (hbeside : Beside home d d') (hways : d.SameWays d') (hsound : d'.Sound) :
    d'.Rooted root origin (Owns home) where
  sound := hsound
  absolute := h.absolute
  backslash := h.backslash
  found := hways.locate_iff.mp h.found
  isDirectory := hways.directory h.isDirectory
  plain names bytes hfile haside := h.plain names bytes (hbeside.lookup haside ▸ hfile) haside

/-- Directories are no files. -/
theorem Disk.Grows.sameFiles (h : d.Grows d') (aside : Place → Prop) :
    SameFiles origin aside d d' :=
  fun _ bytes _ => h.lookup_iff (show Entry.file bytes ≠ .directory from nofun)

/-- The same tree is on both disks: the files below `origin` are the same, apart from those of the
caches at `home`, and so is the verdict of the rules. -/
structure Indexer.SameTree (ix : Indexer σ) (origin home : Place) (d d' : Disk) : Prop where
  /-- the files are the same -/
  files : SameFiles origin (Owns home) d d'
  /-- the verdict is the same -/
  rules : ix.rules d' = ix.rules d

theorem Indexer.SameTree.symm (h : ix.SameTree origin home d d') : ix.SameTree origin home d' d :=
  ⟨fun names bytes haside => (h.files names bytes haside).symm, h.rules.symm⟩

theorem Indexer.SameTree.trans {d'' : Disk} (h : ix.SameTree origin home d d')
    (h' : ix.SameTree origin home d' d'') : ix.SameTree origin home d d'' :=
  ⟨fun names bytes haside => (h'.files names bytes haside).trans (h.files names bytes haside),
    h'.rules.trans h.rules⟩

/-! ## Disks that are ready -/

/-- The rules are read from certain files, and none of them is a file of the caches. -/
def Unruled (rules : SkipRules) (home : Place) (d : Disk) : Prop :=
  ∃ paths, ReadFrom rules paths ∧
    ∀ path ∈ paths (directories d), ∀ p, d.locate true path = .ok p → ¬Owns home p

/-- On a disk without links the rule files are none of the caches. -/
theorem unruled_of_forall_ne_link (hlinks : ∀ p target, d.lookup p ≠ some (.link target)) :
    Unruled skipRules home d := by
  refine ⟨rulePaths, readFrom_skipRules, fun path hpath p hp howns => ?_⟩
  obtain ⟨place, -, hpath⟩ := List.mem_flatMap.mp hpath
  obtain ⟨name, hname, rfl⟩ := List.mem_map.mp hpath
  obtain ⟨front, last, rfl, hlast⟩ := exists_of_locate_rule hlinks hname hp
  obtain ⟨kind, hkind | hkind⟩ := howns
  all_goals
    obtain rfl : last = _ := by simpa using List.append_inj_right' hkind rfl
    cases kind <;> revert hlast <;> decide

namespace Indexer

/-- An indexer can work on a disk, where its root is at `origin` and its caches are kept at `home`.
-/
structure Ready (ix : Indexer σ) (origin home : Place) (d : Disk) : Prop where
  /-- the root is there -/
  rooted : d.Rooted ix.root origin (Owns home)
  /-- the directory of the caches can be made, and neither it nor the caches bring rules -/
  opens : ∃ d', ix.store.Opens d d' home ∧ ix.rules d' = ix.rules d ∧ Unruled ix.rules home d'
  /-- the directory of the caches lies outside the root, or it is excluded -/
  excluded : ∀ names, home = origin ++ names →
    names ≠ [] ∧ (∀ name ∈ names, '\\' ∉ name.toList) ∧ ofComponents names ∈ ix.root.excluded

/-- A walk leaves the files of the caches out. -/
theorem Ready.unseen (h : ix.Ready origin home d) : Unseen ix.root origin (Owns home) := by
  intro names hne howns
  obtain ⟨file, hplace, hfile, hplain⟩ := howns.exists_name
  -- the last name is the file's, and the names in front of it lead to the directory of the caches
  obtain ⟨more, last, rfl⟩ := (List.eq_nil_or_concat names).resolve_left hne
  rw [List.concat_eq_append] at hplace ⊢
  rw [← List.append_assoc] at hplace
  obtain ⟨hhome, hlast⟩ := List.append_inj' hplace rfl
  obtain rfl : last = file := by simpa using hlast
  obtain ⟨hmore, hbackslash, hexcluded⟩ := h.excluded more hhome.symm
  obtain ⟨d', hopens, -⟩ := h.opens
  have hthere : (d'.lookup (origin ++ more)).isSome := by
    rw [hhome, hopens.settled.isDirectory]
    rfl
  have hnames := hopens.settled.sound.isName origin hthere
  refine takesIn_of_excluded h.rooted.absolute h.rooted.backslash hmore (fun n hn => ?_) hexcluded
  rcases List.mem_append.mp hn with hn | hn
  · exact ⟨hnames n hn, hbackslash n hn⟩
  · obtain rfl := List.mem_singleton.mp hn
    exact ⟨hfile, hplain⟩

/-- The same is collected of the same tree. -/
theorem Ready.collect_eq (h : ix.Ready origin home d) (h' : ix.Ready origin home d')
    (htree : ix.SameTree origin home d d') : ix.collect d' = ix.collect d :=
  collect_congr h.rooted h'.rooted h.unseen htree.rules htree.files

/-- A disk stays ready while files of the caches change, and the tree stays the same. -/
theorem Ready.beside (h : ix.Ready origin home d) (hsettled : ix.store.Settled d home)
    (hunruled : Unruled ix.rules home d) (hbeside : Beside home d d')
    (hsettled' : ix.store.Settled d' home) :
    ix.Ready origin home d' ∧ ix.SameTree origin home d d' := by
  have hways := hbeside.sameWays hsettled.dead hsettled'.dead
  have htop : d'.entries[([] : Place)]? = d.entries[([] : Place)]? := by
    refine hbeside [] fun howns => ?_
    obtain ⟨name, hname, -⟩ := howns.exists_name
    simp at hname
  have hdirectories := directories_congr hways htop
  obtain ⟨paths, hreads, hbesides⟩ := hunruled
  have hunruled' : Unruled ix.rules home d' := by
    refine ⟨paths, hreads, fun path hpath p hp => ?_⟩
    rw [hdirectories] at hpath
    exact hbesides path hpath p (hways.locate_iff.mpr hp)
  have hrules : ix.rules d' = ix.rules d :=
    hreads d d' hdirectories fun path hpath =>
      Disk.read_congr hways fun p hp => hbeside.lookup (hbesides path hpath p hp)
  exact ⟨⟨h.rooted.beside hbeside hways hsettled'.sound, ⟨d', hsettled'.opens, rfl, hunruled'⟩,
    h.excluded⟩, fun names bytes haside => by rw [hbeside.lookup haside], hrules⟩

/-- What saving a cache leads to. -/
structure Updates (ix : Indexer σ) (origin home : Place) (kind : CacheKind) (c : Cache)
    (d d' : Disk) :
    Prop where
  /-- the indexer can go on -/
  ready : ix.Ready origin home d'
  /-- the tree is the same -/
  tree : ix.SameTree origin home d d'
  /-- what is read from the text of the cache is loaded, and nothing if nothing can be read from it
  -/
  loaded : ix.store.load kind d' = (Cache.ofText? c.text).getD ∅
  /-- the other cache is loaded as before -/
  other : ∀ kind', kind' ≠ kind → ix.store.load kind' d' = ix.store.load kind' d

/-- **Saving a cache changes nothing else.** The directory of the caches is made if it is missing,
and then files in it change. -/
theorem Ready.update (h : ix.Ready origin home d) (kind : CacheKind) (c : Cache) :
    ix.Updates origin home kind c d (ix.savedCache kind c d) := by
  obtain ⟨between, hopens, hrules, hunruled⟩ := h.opens
  have hsaved := written_savedCache kind hopens c
  generalize ix.savedCache kind c d = d' at hsaved
  have hgrows := grows_makeDirectories hopens.made
  have hbetween : ix.Ready origin home between :=
    ⟨h.rooted.grow hgrows hopens.settled.sound, ⟨between, hopens.settled.opens, rfl, hunruled⟩,
      h.excluded⟩
  obtain ⟨hready, htree⟩ := hbetween.beside hopens.settled hunruled hsaved.beside hsaved.settled
  refine ⟨hready, .trans ⟨hgrows.sameFiles _, hrules⟩ htree, hsaved.loaded, ?_⟩
  intro kind' hkind
  rw [hsaved.other kind' hkind, hopens.loads]

end Indexer

end CodeAtlas
