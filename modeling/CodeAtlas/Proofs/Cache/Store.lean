import CodeAtlas.Proofs.Cache.Written
import CodeAtlas.Proofs.Disk.Save

/-!
# Caches come back from the disk

Setup: the directory of the caches stands at the place `home`, and no directory and no link has the
name of a cache file or of its draft (`CacheStore.Settled`). Then saving a cache succeeds, what is
read from its text is loaded again, the other cache is loaded as before, and no other place of the
disk changes: **`CacheStore.Opens.write`**. A storable cache is loaded as it was saved:
**`CacheStore.Opens.save`**.

Saving makes the directory if it is missing, so the statement is about a disk that is settled once
the directory is made (`CacheStore.Opens`).
-/

namespace CodeAtlas

open CodeAtlas.Disk CodeAtlas.Path

/-- The file of a cache has a name. -/
theorem CacheKind.isName_fileName (kind : CacheKind) : IsName kind.fileName := by
  cases kind <;> exact ⟨by decide, by decide, by decide, by decide⟩

/-- The draft of a cache has a name. -/
theorem CacheKind.isName_draft (kind : CacheKind) : IsName (kind.fileName ++ ".tmp") := by
  cases kind <;> exact ⟨by decide, by decide, by decide, by decide⟩

/-- The two caches and their drafts have four names. -/
theorem CacheKind.eq_of_fileName (kind kind' : CacheKind) :
    (kind.fileName = kind'.fileName → kind = kind') ∧
      (kind.fileName ++ ".tmp" = kind'.fileName ++ ".tmp" → kind = kind') ∧
      kind.fileName ≠ kind'.fileName ++ ".tmp" := by
  cases kind <;> cases kind' <;> decide

namespace CacheStore

/-- The places in a directory that belong to the caches. -/
def Owns (home place : Place) : Prop :=
  ∃ kind : CacheKind, place = home ++ [kind.fileName] ∨ place = home ++ [kind.fileName ++ ".tmp"]

/-- The disks differ at most in the caches that are kept at `home`. -/
def Beside (home : Place) (d d' : Disk) : Prop :=
  ∀ place, ¬Owns home place → d'.entries[place]? = d.entries[place]?

/-- Elsewhere the same stands on both disks. -/
theorem Beside.lookup {home : Place} {d d' : Disk} (h : Beside home d d') {place : Place}
    (hplace : ¬Owns home place) : d'.lookup place = d.lookup place := by
  by_cases htop : place = []
  · rw [htop]
    rfl
  · rw [← getElem?_entries htop, ← getElem?_entries htop, h place hplace]

/-- The caches are kept in a directory at `home`, and nothing but files has their names. -/
structure Settled (s : CacheStore) (d : Disk) (home : Place) : Prop where
  /-- the disk is as a file system holds it -/
  sound : d.Sound
  /-- the directory of the caches is found -/
  found : d.locate true s.directory = .ok home
  /-- it is a directory -/
  isDirectory : d.lookup home = some .directory
  /-- nothing but files has the names of the caches and their drafts -/
  dead : ∀ place, Owns home place → Dead (d.lookup place)

variable {s : CacheStore} {d d' : Disk} {home : Place}

/-- There is room for each cache. -/
theorem Settled.room (h : s.Settled d home) (kind : CacheKind) :
    d.Room s.directory home kind.fileName where
  found := h.found
  isDirectory := h.isDirectory
  isName := kind.isName_fileName
  isDraftName := kind.isName_draft
  file := h.dead _ ⟨kind, .inl rfl⟩
  draft := h.dead _ ⟨kind, .inr rfl⟩

/-- The cache that is read from what stands at its place. -/
def cacheOf : Option Entry → Cache
  | some (.file bytes) => ((String.fromUTF8? bytes).bind Cache.ofText?).getD ∅
  | _ => ∅

/-- A cache is read from its place. -/
theorem Settled.load_eq (h : s.Settled d home) (kind : CacheKind) :
    s.load kind d = cacheOf (d.lookup (home ++ [kind.fileName])) := by
  have hroom := h.room kind
  have hlocate : d.locate true (s.path kind) = .ok (home ++ [kind.fileName]) :=
    locate_join true h.found h.isDirectory hroom.isName hroom.file.ne_link
  rw [load, Disk.read, find, hlocate]
  cases hentry : d.lookup (home ++ [kind.fileName]) with
  | none => simp only [hentry]; rfl
  | some entry =>
    cases entry with
    | directory => exact absurd hentry hroom.file.ne_directory
    | link target => exact absurd hentry (hroom.file.ne_link target)
    | file bytes =>
      simp only [hentry, cacheOf]
      cases (String.fromUTF8? bytes).bind Cache.ofText? <;> rfl

/-- A cache that stands where it stood is loaded as before. -/
theorem Settled.load_congr (h : s.Settled d home) (h' : s.Settled d' home) {kind : CacheKind}
    (hsame : d'.lookup (home ++ [kind.fileName]) = d.lookup (home ++ [kind.fileName])) :
    s.load kind d' = s.load kind d := by
  rw [h.load_eq, h'.load_eq, hsame]

/-- Such disks differ at most in their files. -/
theorem Beside.sameWays (h : Beside home d d')
    (hdead : ∀ place, Owns home place → Dead (d.lookup place))
    (hdead' : ∀ place, Owns home place → Dead (d'.lookup place)) : d.SameWays d' := by
  intro place
  by_cases hplace : Owns home place
  · exact .inr ⟨hdead place hplace, hdead' place hplace⟩
  · exact .inl (h.lookup hplace).symm

/-- A settled disk stays settled while only files under the names of the caches change. -/
theorem Settled.beside (h : s.Settled d home) (hbeside : Beside home d d')
    (hdead : ∀ place, Owns home place → Dead (d'.lookup place)) : s.Settled d' home := by
  have hways := hbeside.sameWays h.dead hdead
  refine ⟨⟨fun place name hsome => ?_, fun place name hsome => ?_⟩, hways.locate_iff.mp h.found,
    hways.directory h.isDirectory, hdead⟩
  · by_cases hplace : Owns home (place ++ [name])
    · obtain ⟨kind, hkind | hkind⟩ := hplace <;>
        exact (List.append_inj_left' hkind rfl) ▸ hways.directory h.isDirectory
    · rw [hbeside.lookup hplace] at hsome
      exact hways.directory (h.sound.parent place name hsome)
  · by_cases hplace : Owns home (place ++ [name])
    · obtain ⟨kind, hkind | hkind⟩ := hplace
      · have hname : name = kind.fileName := by simpa using List.append_inj_right' hkind rfl
        exact hname ▸ kind.isName_fileName
      · have hname : name = kind.fileName ++ ".tmp" := by
          simpa using List.append_inj_right' hkind rfl
        exact hname ▸ kind.isName_draft
    · rw [hbeside.lookup hplace] at hsome
      exact h.sound.named place name hsome

/-- What saving a cache leads to, whatever its vectors are. -/
structure Written (s : CacheStore) (home : Place) (kind : CacheKind) (c : Cache) (d d' : Disk) :
    Prop where
  /-- the caches are settled -/
  settled : s.Settled d' home
  /-- nothing else changed -/
  beside : Beside home d d'
  /-- what is read from its text is loaded, and nothing if nothing can be read from it -/
  loaded : s.load kind d' = (Cache.ofText? c.text).getD ∅
  /-- the other cache is loaded as before -/
  other : ∀ kind', kind' ≠ kind → s.load kind' d' = s.load kind' d

/-- What saving a storable cache leads to. -/
structure Saved (s : CacheStore) (home : Place) (kind : CacheKind) (c : Cache) (d d' : Disk) :
    Prop where
  /-- the caches are settled -/
  settled : s.Settled d' home
  /-- nothing else changed -/
  beside : Beside home d d'
  /-- the cache is loaded again -/
  loaded : (s.load kind d').Equiv c
  /-- the other cache is loaded as before -/
  other : ∀ kind', kind' ≠ kind → s.load kind' d' = s.load kind' d

/-- A storable cache is loaded as it was written. -/
theorem Written.saved {kind : CacheKind} {c : Cache} (h : s.Written home kind c d d')
    (hc : c.Storable) : s.Saved home kind c d d' where
  settled := h.settled
  beside := h.beside
  loaded := by
    obtain ⟨c', hc', hequiv⟩ := Cache.ofText?_text hc
    rw [h.loaded, hc', Option.getD_some]
    exact hequiv
  other := h.other

/-- Saving a cache in a settled directory. -/
theorem Settled.write (h : s.Settled d home) (kind : CacheKind) (c : Cache) :
    ∃ d', s.save kind c d = .ok () d' ∧ s.Written home kind c d d' := by
  obtain ⟨d', hsave, htop, hlookup⟩ := save_eq h.sound (h.room kind) c.text
  have hbeside : Beside home d d' := by
    intro place hplace
    by_cases hnil : place = []
    · rw [hnil, htop]
    · rw [getElem?_entries hnil, getElem?_entries hnil, hlookup,
        if_neg fun heq => hplace ⟨kind, .inl heq⟩, if_neg fun heq => hplace ⟨kind, .inr heq⟩]
  have hdead : ∀ place, Owns home place → Dead (d'.lookup place) := by
    intro place hplace
    rw [hlookup]
    split_ifs
    · trivial
    · trivial
    · exact h.dead place hplace
  have hsettled := h.beside hbeside hdead
  refine ⟨d', hsave, hsettled, hbeside, ?_, fun kind' hkind => ?_⟩
  · rw [hsettled.load_eq, hlookup, if_pos rfl, cacheOf, fromUTF8?_toUTF8, Option.bind_some]
  · obtain ⟨hfile, -, hdraft⟩ := CacheKind.eq_of_fileName kind' kind
    refine h.load_congr hsettled ?_
    rw [hlookup, if_neg, if_neg]
    · exact fun heq => hdraft (by simpa using heq)
    · exact fun heq => hkind (hfile (by simpa using heq))

/-- Making the directory of the caches leads to a settled disk and brings no other cache to light.
-/
structure Opens (s : CacheStore) (d d' : Disk) (home : Place) : Prop where
  /-- the directory is made -/
  made : makeDirectories s.directory d = .ok () d'
  /-- the caches are settled then -/
  settled : s.Settled d' home
  /-- and they are the same -/
  loads : ∀ kind, s.load kind d' = s.load kind d

/-- A directory that is there is not made. -/
theorem Settled.made (h : s.Settled d home) : makeDirectories s.directory d = .ok () d :=
  makeDirectories_of_directory h.found h.isDirectory

/-- A settled disk opens to itself. -/
theorem Settled.opens (h : s.Settled d home) : s.Opens d d home :=
  ⟨h.made, h, fun _ => rfl⟩

/-- **Saving a cache** succeeds, and the caches on the disk are then the one that is read from its
text and the other one as it was. -/
theorem Opens.write (h : s.Opens d d' home) (kind : CacheKind) (c : Cache) :
    ∃ d'', s.save kind c d = .ok () d'' ∧ s.Written home kind c d' d'' := by
  obtain ⟨d'', hsave, hwritten⟩ := h.settled.write kind c
  refine ⟨d'', ?_, hwritten⟩
  rw [← hsave]
  simp only [CacheStore.save, Disk.save, reporting, bind, EStateM.bind, h.made, h.settled.made]

/-- **Saving a storable cache** succeeds, and the caches on the disk are then the new one and the
other one as it was. -/
theorem Opens.save (h : s.Opens d d' home) (kind : CacheKind) {c : Cache} (hc : c.Storable) :
    ∃ d'', s.save kind c d = .ok () d'' ∧ s.Saved home kind c d' d'' := by
  obtain ⟨d'', hsave, hwritten⟩ := h.write kind c
  exact ⟨d'', hsave, hwritten.saved hc⟩

end CacheStore

end CodeAtlas
