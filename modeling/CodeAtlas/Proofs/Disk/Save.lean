import CodeAtlas.Disk.Save
import CodeAtlas.Proofs.Disk.Locate

/-!
# What saving a file does

Setup: on a disk as a file system holds it (`Disk.Sound`), a text is saved under a name in a
directory that is there. **`Disk.save_eq`** says what stands at each place afterwards: the text at
its place, nothing at the place of the draft, and everything else as before.
-/

namespace CodeAtlas.Disk

open CodeAtlas.Path CodeAtlas.Text

variable {d : Disk} {home place : Place} {directory name : String}

/-! ## Places -/

/-- What stands at each place after an entry was put at one. -/
theorem lookup_put (hplace : place ≠ []) (entry : Entry) (p : Place) :
    (d.put place entry).lookup p = if p = place then some entry else d.lookup p := by
  by_cases hp : p = place
  · subst hp
    simp [lookup, put, hplace]
  · have hcompare : ¬compare place p = .eq :=
      fun h => hp (Std.LawfulEqCmp.compare_eq_iff_eq.mp h).symm
    simp only [lookup, put, Std.TreeMap.get?_eq_getElem?, Std.TreeMap.getElem?_insert, if_neg hp,
      if_neg hcompare]

/-- What is listed at a place other than the top is what stands there. -/
theorem getElem?_entries (hplace : place ≠ []) : d.entries[place]? = d.lookup place := by
  rw [lookup, List.isEmpty_eq_false_iff.mpr hplace, Std.TreeMap.get?_eq_getElem?]
  rfl

/-- What stands at each place after one was cut off. -/
theorem lookup_cut (hplace : place ≠ []) (p : Place) :
    (d.cut place).lookup p = if place <+: p then none else d.lookup p := by
  by_cases hp : p = []
  · subst hp
    rw [if_neg (by simpa using hplace)]
    rfl
  · have hprefix : place.isPrefixOf p = decide (place <+: p) := by
      rw [Bool.eq_iff_iff, List.isPrefixOf_iff_prefix, decide_eq_true_iff]
    simp only [lookup, cut, Std.TreeMap.get?_eq_getElem?, Std.TreeMap.getElem?_filter',
      List.isEmpty_eq_false_iff.mpr hp, Bool.false_eq_true, if_false, hprefix]
    cases d.entries[p]? <;> by_cases h : place <+: p <;> simp [h]

/-- What is listed for the top after an entry was put at another place. -/
theorem top_put (hplace : place ≠ []) (entry : Entry) :
    (d.put place entry).entries[([] : Place)]? = d.entries[([] : Place)]? := by
  rw [put, Std.TreeMap.getElem?_insert, if_neg]
  exact fun h => hplace (Std.LawfulEqCmp.compare_eq_iff_eq.mp h)

/-- What is listed for the top after another place was cut off. -/
theorem top_cut (hplace : place ≠ []) :
    (d.cut place).entries[([] : Place)]? = d.entries[([] : Place)]? := by
  obtain ⟨first, rest, rfl⟩ := List.exists_cons_of_ne_nil hplace
  rw [cut, Std.TreeMap.getElem?_filter']
  cases d.entries[([] : Place)]? <;> rfl

/-- A disk as a file system holds it: an entry lies in a directory, and has a name. -/
structure Sound (d : Disk) : Prop where
  /-- what an entry lies in is a directory -/
  parent : ∀ (place : Place) (name : String), (d.lookup (place ++ [name])).isSome →
    d.lookup place = some .directory
  /-- an entry has a name -/
  named : ∀ (place : Place) (name : String), (d.lookup (place ++ [name])).isSome → IsName name

/-- The disk with nothing on it. -/
theorem lookup_empty (p : Place) :
    Disk.empty.lookup p = if p = [] then some .directory else none := by
  cases p with
  | nil => rfl
  | cons name p => simp [lookup, Disk.empty, Std.TreeMap.get?_eq_getElem?]

/-- Nothing lies anywhere on it. -/
theorem sound_empty : Disk.empty.Sound := by
  constructor <;> intro place name h <;> simp [lookup_empty] at h

/-- A new entry in a directory. -/
theorem Sound.put (hd : d.Sound) (place : Place) (hplace : d.lookup place = some .directory)
    (hname : IsName name) (hnew : d.lookup (place ++ [name]) = none) (entry : Entry) :
    (d.put (place ++ [name]) entry).Sound := by
  have hlookup := lookup_put (d := d) (List.append_ne_nil_of_right_ne_nil place
    (List.cons_ne_nil name [])) entry
  have hkeep {p : Place} (hp : d.lookup p = some .directory) :
      (d.put (place ++ [name]) entry).lookup p = some .directory := by
    rw [hlookup, if_neg]
    · exact hp
    · rintro rfl
      rw [hnew] at hp
      cases hp
  constructor <;> intro p n h <;> rw [hlookup] at h <;> split at h
  · next heq =>
    obtain ⟨rfl, -⟩ := List.append_inj' heq rfl
    exact hkeep hplace
  · exact hkeep (hd.parent p n h)
  · next heq =>
    have hn : n = name := by simpa using List.append_inj_right' heq rfl
    exact hn ▸ hname
  · exact hd.named p n h

/-- Nothing lies below what is no directory. -/
theorem Sound.lookup_append (hd : d.Sound) (h : d.lookup place ≠ some .directory) :
    ∀ more, more ≠ [] → d.lookup (place ++ more) = none := by
  intro more
  induction more using List.reverseRecOn with
  | nil => exact fun hne => absurd rfl hne
  | append_singleton more name ih =>
    intro _
    by_contra hsome
    rw [← List.append_assoc] at hsome
    have hparent := hd.parent _ _ (Option.isSome_iff_ne_none.mpr hsome)
    cases more with
    | nil => rw [List.append_nil] at hparent; exact h hparent
    | cons first more =>
      rw [ih (List.cons_ne_nil _ _)] at hparent
      cases hparent

/-! ## Making a directory that is there -/

/-- Slashes at the end add empty components. -/
theorem piecesAt_append_replicate (cs : List Char) (n : Nat) :
    piecesAt '/' (cs ++ List.replicate n '/') = piecesAt '/' cs ++ List.replicate n [] := by
  induction n with
  | zero => simp
  | succ n ih =>
    rw [List.replicate_succ', ← List.append_assoc, piecesAt_append_cons, ih, List.append_assoc,
      List.replicate_succ']
    rfl

/-- Empty components at the end lead nowhere else. -/
theorem Leads.withoutEmpties {here : Place} {links : Nat} {parts : List String} (n : Nat)
    (h : Leads d true links here (parts ++ List.replicate n "") place) :
    Leads d true links here parts place := by
  induction n with
  | zero => simpa using h
  | succ n ih =>
    rw [List.replicate_succ', ← List.append_assoc] at h
    exact ih h.withoutEmpty

/-- Something stands at the path of a directory, slashes at its end or not. -/
theorem locate_withoutEndSlashes {path : String} (h : d.locate true path = .ok place)
    (hplace : (d.lookup place).isSome) :
    ∃ place', d.locate false (withoutEndSlashes path) = .ok place' ∧ (d.lookup place').isSome := by
  obtain ⟨n, hpath⟩ := eq_dropEndSlashes_append path.toList
  rw [withoutEndSlashes]
  split
  · refine ⟨[], ?_, rfl⟩
    have htop : Leads d false maxLinks [] (splitOn '/' "/") [] :=
      .idle rfl (.inl rfl) (.idle rfl (.inl rfl) .arrive)
    exact locate_iff_leads.mpr htop
  · rw [locate_iff_leads, splitOn, splitOnChar, hpath, piecesAt_append_replicate, List.map_append,
      List.map_replicate] at h
    obtain ⟨place', hleads, hthere⟩ := (h.withoutEmpties n).unfollowed hplace
    refine ⟨place', locate_iff_leads.mpr ?_, hthere⟩
    rwa [splitOn, splitOnChar, String.toList_ofList]

/-- **Making a directory that is there changes nothing.** -/
theorem makeDirectories_of_directory {path : String} (h : d.locate true path = .ok place)
    (hplace : d.lookup place = some .directory) : makeDirectories path d = .ok () d := by
  have hdirectory : d.isDirectory path = true := by simp [isDirectory, find, h, hplace]
  obtain ⟨place', hlocate, hthere⟩ := locate_withoutEndSlashes h (by rw [hplace]; rfl)
  obtain ⟨entry, hentry⟩ := Option.isSome_iff_exists.mp hthere
  have hmake : makeDirectory path d = .error .occupied d := by
    simp only [makeDirectory, hlocate, hentry]
  rw [makeDirectories, makeDirectoriesFrom]
  simp only [hmake, hdirectory, if_true, ite_self]

/-! ## Saving

A save writes the draft and moves it over the old file. Neither step changes a directory or a link,
so the paths lead to the same places before and after the first step. -/

/-- A file can be saved under a name in a directory that stands at `home`: neither the name nor the
name of the draft is taken by a directory or a link. -/
structure Room (d : Disk) (directory : String) (home : Place) (name : String) : Prop where
  /-- the directory is there -/
  found : d.locate true directory = .ok home
  /-- it is a directory -/
  isDirectory : d.lookup home = some .directory
  /-- the file has a name -/
  isName : IsName name
  /-- the draft has a name -/
  isDraftName : IsName (name ++ ".tmp")
  /-- no directory and no link has the file's name -/
  file : Dead (d.lookup (home ++ [name]))
  /-- no directory and no link has the draft's name -/
  draft : Dead (d.lookup (home ++ [name ++ ".tmp"]))

/-- What is dead is no directory. -/
theorem Dead.ne_directory {what : Option Entry} (h : Dead what) : what ≠ some .directory := by
  rintro rfl
  exact h

/-- What is dead is no link. -/
theorem Dead.ne_link {what : Option Entry} (h : Dead what) (target : String) :
    what ≠ some (.link target) := by
  rintro rfl
  exact h

/-- A path that ends in a name has no slashes at its end. -/
theorem withoutEndSlashes_join (directory : String) (hname : IsName name) :
    withoutEndSlashes (join directory name) = join directory name ∧
      hasEndSlash (join directory name) = false := by
  obtain ⟨c, hlast, hc⟩ := hname.getLast?_eq
  have hjoin := getLast?_join directory hname.isAbsolute_eq hlast
  obtain ⟨front, hfront⟩ := List.getLast?_eq_some_iff.mp hjoin
  refine ⟨?_, ?_⟩
  · have hkept : ((join directory name).toList.reverse.dropWhile (· = '/')).reverse =
        (join directory name).toList := by
      rw [hfront, List.reverse_append, List.reverse_singleton, List.singleton_append,
        List.dropWhile_cons_of_neg (by simpa using hc)]
      simp
    have hsome : (join directory name).toList.isEmpty = false := by rw [hfront]; simp
    simp only [withoutEndSlashes, hkept, hsome, Bool.false_and, Bool.false_eq_true, if_false,
      String.ofList_toList]
  · rw [hasEndSlash, hjoin]
    simpa using hc

/-- A file can be written where no directory and no link has its name. -/
theorem writable_join (h : d.locate true directory = .ok home)
    (hhome : d.lookup home = some .directory)
    (hname : IsName name) (hdead : Dead (d.lookup (home ++ [name]))) :
    d.writable (join directory name) = .ok (home ++ [name]) := by
  obtain ⟨hslashes, hend⟩ := withoutEndSlashes_join directory hname
  have hlocate := locate_join true h hhome hname hdead.ne_link
  rw [writable, hslashes, hlocate]
  simp only [hend, Bool.false_eq_true, if_false]
  split
  · next hdirectory => exact absurd hdirectory hdead.ne_directory
  · rfl

/-- Writing puts the file there. -/
theorem write_eq (h : d.locate true directory = .ok home) (hhome : d.lookup home = some .directory)
    (hname : IsName name) (hdead : Dead (d.lookup (home ++ [name]))) (bytes : ByteArray) :
    write (join directory name) bytes d = .ok () (d.put (home ++ [name]) (.file bytes)) := by
  rw [write, writable_join h hhome hname hdead]

/-- Putting a file where none, or another one, stood leaves the ways as they are. -/
theorem sameWays_put (hplace : place ≠ []) (hdead : Dead (d.lookup place)) (bytes : ByteArray) :
    d.SameWays (d.put place (.file bytes)) := by
  intro p
  rw [lookup_put hplace]
  by_cases hp : p = place
  · subst hp
    rw [if_pos rfl]
    exact .inr ⟨hdead, trivial⟩
  · rw [if_neg hp]
    exact .inl rfl

/-- Moving a file over a place that no directory takes. -/
theorem rename_eq {source target : String} {origin : Place} {entry : Entry}
    (hsource : d.locate false source = .ok origin) (hentry : d.lookup origin = some entry)
    (htarget : d.locate false target = .ok place) (hplace : d.lookup place ≠ some .directory)
    (hne : place ≠ origin) :
    rename source target d = .ok () ((d.cut origin).put place entry) := by
  simp only [rename, hsource, hentry, htarget, if_neg hne]

/-- The draft has another place than the file. -/
theorem ne_draft (home : Place) (name : String) : home ++ [name] ≠ home ++ [name ++ ".tmp"] := by
  intro heq
  have hnames : name = name ++ ".tmp" := by simpa using heq
  have hlengths := congrArg (fun s => s.toList.length) hnames
  simp at hlengths

/-- What stands where after a save: the text, nothing at the draft's place and below it, and
everything else as before. Nothing is listed for the top that was not listed before. -/
theorem save_of_room (h : d.Room directory home name) (text : String) :
    ∃ d', save directory name text d = .ok () d' ∧
      d'.entries[([] : Place)]? = d.entries[([] : Place)]? ∧
      ∀ p, d'.lookup p =
        if p = home ++ [name] then some (.file text.toUTF8)
        else if home ++ [name ++ ".tmp"] <+: p then none else d.lookup p := by
  have hnonempty (last : String) : home ++ [last] ≠ [] :=
    List.append_ne_nil_of_right_ne_nil _ (List.cons_ne_nil _ _)
  have hne := ne_draft home name
  have hdirectory := makeDirectories_of_directory h.found h.isDirectory
  have hwrite := write_eq h.found h.isDirectory h.isDraftName h.draft text.toUTF8
  -- the disk with the draft on it: the paths lead where they led
  generalize hbetween : d.put (home ++ [name ++ ".tmp"]) (.file text.toUTF8) = between at hwrite
  have hlookup : ∀ p, between.lookup p =
      if p = home ++ [name ++ ".tmp"] then some (.file text.toUTF8) else d.lookup p :=
    hbetween ▸ lookup_put (hnonempty _) _
  have hways : d.SameWays between := hbetween ▸ sameWays_put (hnonempty _) h.draft _
  have hfound := hways.locate_iff.mp h.found
  have hhome := hways.directory h.isDirectory
  have hdraft : between.lookup (home ++ [name ++ ".tmp"]) = some (.file text.toUTF8) := by
    rw [hlookup, if_pos rfl]
  have hfile : between.lookup (home ++ [name]) = d.lookup (home ++ [name]) := by
    rw [hlookup, if_neg hne]
  have hrename := rename_eq
    (locate_join false hfound hhome h.isDraftName (by rw [hdraft]; simp)) hdraft
    (locate_join false hfound hhome h.isName (by rw [hfile]; exact h.file.ne_link))
    (by rw [hfile]; exact h.file.ne_directory) hne
  refine ⟨(between.cut (home ++ [name ++ ".tmp"])).put (home ++ [name]) (.file text.toUTF8), ?_, ?_,
    fun p => ?_⟩
  · simp only [save, reporting, bind, EStateM.bind, hdirectory, hwrite, hrename]
  · rw [top_put (hnonempty _), top_cut (hnonempty _), ← hbetween, top_put (hnonempty _)]
  · rw [lookup_put (hnonempty _), lookup_cut (hnonempty _)]
    split_ifs with hp hprefix
    · rfl
    · rfl
    · rw [hlookup, if_neg]
      rintro rfl
      exact hprefix List.prefix_rfl

/-- **What stands where after a save**, on a disk as a file system holds it. -/
theorem save_eq (hd : d.Sound) (h : d.Room directory home name) (text : String) :
    ∃ d', save directory name text d = .ok () d' ∧
      d'.entries[([] : Place)]? = d.entries[([] : Place)]? ∧
      ∀ p, d'.lookup p =
        if p = home ++ [name] then some (.file text.toUTF8)
        else if p = home ++ [name ++ ".tmp"] then none else d.lookup p := by
  obtain ⟨d', hsave, htop, hlookup⟩ := save_of_room h text
  refine ⟨d', hsave, htop, fun p => ?_⟩
  rw [hlookup]
  split_ifs with hp hprefix htmp htmp
  · rfl
  · rfl
  -- nothing lay below the draft's place, so nothing more was cut off
  · obtain ⟨more, rfl⟩ := hprefix
    have hmore : more ≠ [] := fun hnil => htmp (by rw [hnil, List.append_nil])
    exact (hd.lookup_append h.draft.ne_directory more hmore).symm
  · exact absurd (htmp ▸ List.prefix_refl _) hprefix
  · rfl

end CodeAtlas.Disk
