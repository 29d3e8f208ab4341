import CodeAtlas.Proofs.Disk.Copy

/-!
# Where a path comes past

Setup: the links decide which places a path comes past (`Disk.Visits`); whether the directories are
there is not asked. A path that comes past no place of some region leads to the same place whatever
stands in that region: **`Disk.locate_congr`**.

Directories are made on the way of a path only: **`Disk.front_of_makeDirectories`** says that a new
directory stands where some components at the beginning of the path lead.
-/

namespace CodeAtlas.Disk

open CodeAtlas.Path CodeAtlas.Text

variable {d d' : Disk} {follow : Bool} {links : Nat} {here place p : Place}
  {front rest : List String} {path : String} {X : Place → Prop}

/-- The components `rest`, followed from `here`, come past a place, as far as the links decide. -/
inductive Visits (d : Disk) : Nat → Place → List String → Place → Prop where
  /-- where it starts -/
  | here {links : Nat} {here : Place} {rest : List String} : Visits d links here rest here
  /-- a component that names nothing -/
  | idle {links : Nat} {here place : Place} {component : String} {rest : List String}
      (idle : component = "" ∨ component = ".") (go : Visits d links here rest place) :
      Visits d links here (component :: rest) place
  /-- one directory up -/
  | up {links : Nat} {here place : Place} {rest : List String}
      (go : Visits d links here.dropLast rest place) :
      Visits d links here (".." :: rest) place
  /-- a link -/
  | jump {links : Nat} {here place : Place} {component target : String} {rest : List String}
      (idle : ¬(component = "" ∨ component = ".")) (up : component ≠ "..")
      (link : d.lookup (here ++ [component]) = some (.link target))
      (go : Visits d links (if isAbsolute target then [] else here) (splitOn '/' target ++ rest)
      place) :
      Visits d (links + 1) here (component :: rest) place
  /-- an entry that is no link -/
  | enter {links : Nat} {here place : Place} {component : String} {rest : List String}
      (idle : ¬(component = "" ∨ component = ".")) (up : component ≠ "..")
      (link : ∀ target, d.lookup (here ++ [component]) ≠ some (.link target))
      (go : Visits d links (here ++ [component]) rest place) :
      Visits d links here (component :: rest) place

/-- The path comes past no place of a region. -/
def Clear (d : Disk) (path : String) (X : Place → Prop) : Prop :=
  ∀ place, Visits d maxLinks [] (splitOn '/' path) place → ¬X place

/-! ## The way of a path -/

namespace Visits

/-- The links decide. -/
theorem sameLinks (hlinks : d.SameLinks d') (h : Visits d links here rest place) :
    Visits d' links here rest place := by
  induction h with
  | here => exact .here
  | idle idle _ ih => exact .idle idle ih
  | up _ ih => exact .up ih
  | jump idle up link _ ih => exact .jump idle up ((hlinks _ _).mp link) ih
  | enter idle up link _ ih => exact .enter idle up (hlinks.ne_link link) ih

/-- More components come past more places. -/
theorem append (h : Visits d links here front place) (rest : List String) :
    Visits d links here (front ++ rest) place := by
  induction h with
  | here => exact .here
  | idle idle _ ih => exact .idle idle ih
  | up _ ih => exact .up ih
  | jump idle up link _ ih =>
    rw [List.append_assoc] at ih
    exact .jump idle up link ih
  | enter idle up link _ ih => exact .enter idle up link ih

/-- Components that name nothing stay where they are. -/
theorem eq_of_idle (h : Visits d links here rest place) (hidle : ∀ c ∈ rest, c = "" ∨ c = ".") :
    place = here := by
  induction h with
  | here => rfl
  | idle _ _ ih => exact ih fun c hc => hidle c (List.mem_cons_of_mem _ hc)
  | up => exact absurd (hidle ".." List.mem_cons_self) (by decide)
  | jump idle | enter idle => exact absurd (hidle _ List.mem_cons_self) idle

end Visits

/-- A path comes past the place that it leads to. -/
theorem Leads.visits (h : Leads d true links here rest place) : Visits d links here rest place := by
  induction h with
  | arrive => exact .here
  | idle _ idle _ ih => exact .idle idle ih
  | up _ _ ih => exact .up ih
  | stay _ _ _ _ last => cases last
  | jump _ idle up link _ _ ih => exact .jump idle up link ih
  | enter _ idle up link _ ih => exact .enter idle up link ih

/-- What a path comes past: it is on the way that some components at its beginning lead, or on the
way from there. -/
theorem Visits.of_append (h : Leads d true links here front place)
    (hvisits : Visits d links here (front ++ rest) p) :
    Visits d links here front p ∨ ∃ links', Visits d links' place rest p := by
  induction h with
  | arrive => exact .inr ⟨_, hvisits⟩
  | idle _ idle _ ih =>
    cases hvisits with
    | here => exact .inl .here
    | idle _ go => exact (ih go).imp (.idle idle) id
    | up => simp at idle
    | jump other | enter other => exact absurd idle other
  | up _ _ ih =>
    cases hvisits with
    | here => exact .inl .here
    | idle other => simp at other
    | up go => exact (ih go).imp .up id
    | jump _ up | enter _ up => exact absurd rfl up
  | stay _ _ _ _ last => cases last
  | jump _ idle up link _ _ ih =>
    cases hvisits with
    | here => exact .inl .here
    | idle other => exact absurd other idle
    | up => exact absurd rfl up
    | jump _ _ link' go =>
      rw [link] at link'
      cases link'
      exact (ih (by rw [List.append_assoc]; exact go)).imp (.jump idle up link) id
    | enter _ _ other => exact absurd link (other _)
  | enter _ idle up link _ ih =>
    cases hvisits with
    | here => exact .inl .here
    | idle other => exact absurd other idle
    | up => exact absurd rfl up
    | jump _ _ other => exact absurd other (link _)
    | enter _ _ _ go => exact (ih go).imp (.enter idle up link) id

/-- Components of which none leads up stay below a place where no links lie. -/
theorem Visits.prefix_of_down (h : Visits d links here rest p) (hup : ".." ∉ rest)
    (hplain : ∀ more, more ≠ [] → ∀ target, d.lookup (here ++ more) ≠ some (.link target)) :
    here <+: p := by
  induction h with
  | here => exact List.prefix_rfl
  | idle _ _ ih => exact ih (fun hmem => hup (List.mem_cons_of_mem _ hmem)) hplain
  | up => exact absurd List.mem_cons_self hup
  | jump _ _ link => exact absurd link (hplain _ (List.cons_ne_nil _ _) _)
  | enter _ _ _ _ ih =>
    refine (List.prefix_append _ _).trans
      (ih (fun hmem => hup (List.mem_cons_of_mem _ hmem)) fun more _ => ?_)
    rw [List.append_assoc]
    exact hplain _ (List.cons_ne_nil _ _)

/-- Where there are no links, components of which none leads up come past what lies in front of
their end only. -/
theorem Leads.prefix_of_visits (h : Leads d true links here rest place) (hup : ".." ∉ rest)
    (hplain : ∀ q target, d.lookup q ≠ some (.link target)) (hvisits : Visits d links here rest p) :
    p <+: place := by
  induction h with
  | arrive =>
    cases hvisits
    exact List.prefix_rfl
  | idle _ idle go ih =>
    have hrest := fun hmem => hup (List.mem_cons_of_mem _ hmem)
    cases hvisits with
    | here => exact go.visits.prefix_of_down hrest fun more _ => hplain _
    | idle _ hgo => exact ih hrest hgo
    | up => simp at idle
    | jump other | enter other => exact absurd idle other
  | up => exact absurd List.mem_cons_self hup
  | stay _ _ _ link | jump _ _ _ link => exact absurd link (hplain _ _)
  | enter _ idle up _ go ih =>
    have hrest := fun hmem => hup (List.mem_cons_of_mem _ hmem)
    cases hvisits with
    | here =>
      exact (List.prefix_append _ _).trans (go.visits.prefix_of_down hrest fun more _ => hplain _)
    | idle other => exact absurd other idle
    | up => exact absurd rfl up
    | jump _ _ link => exact absurd link (hplain _ _)
    | enter _ _ _ hgo => exact ih hrest hgo

/-- Where no link stands at the end it does not matter whether it would be followed. -/
theorem Leads.followed (h : Leads d follow links here rest place)
    (hplace : ∀ target, d.lookup place ≠ some (.link target)) :
    Leads d true links here rest place := by
  induction h with
  | arrive => exact .arrive
  | idle directory idle _ ih => exact .idle directory idle (ih hplace)
  | up directory _ ih => exact .up directory (ih hplace)
  | stay _ _ _ link => exact absurd link (hplace _)
  | jump directory idle up link _ _ ih => exact .jump directory idle up link (.inl rfl) (ih hplace)
  | enter directory idle up link _ ih => exact .enter directory idle up link (ih hplace)

/-- Some components at the beginning of a way to a directory lead to a directory. -/
theorem Leads.to_front (h : Leads d true links here (front ++ rest) place)
    (hplace : d.lookup place = some .directory) :
    ∃ mid, Leads d true links here front mid ∧ d.lookup mid = some .directory := by
  by_cases hrest : rest = []
  · rw [hrest, List.append_nil] at h
    exact ⟨place, h, hplace⟩
  · obtain ⟨links', mid, hfront, hgo⟩ := h.split hrest
    refine ⟨mid, hfront, ?_⟩
    cases hgo with
    | arrive => exact absurd rfl hrest
    | idle directory | up directory | stay directory | jump directory | enter directory =>
      exact directory

/-- The links decide which regions a path comes past. -/
theorem Clear.sameLinks (h : d.Clear path X) (hlinks : d.SameLinks d') : d'.Clear path X :=
  fun place hplace => h place (hplace.sameLinks hlinks.symm)

/-- Where there are no links, a path that leads down comes past what lies in front of its end only.
-/
theorem clear_of_plain (hlocate : d.locate true path = .ok place) (hup : ".." ∉ splitOn '/' path)
    (hplain : ∀ q target, d.lookup q ≠ some (.link target)) (hX : ∀ p, p <+: place → ¬X p) :
    d.Clear path X :=
  fun p hvisits => hX p ((locate_iff_leads.mp hlocate).prefix_of_visits hup hplain hvisits)

/-! ## What stands off the way -/

/-- The program follows components in the same way on two disks that differ only off the way. -/
theorem locateFrom_congr (hlinks : d.SameLinks d') (hsame : ∀ p, ¬X p → d.lookup p = d'.lookup p)
    (hclear : ∀ p, Visits d links here rest p → ¬X p) :
    d.locateFrom follow links here rest = d'.locateFrom follow links here rest := by
  have hhere := fun {links : Nat} {here : Place} {rest : List String}
    (h : ∀ p, Visits d links here rest p → ¬X p) => (hsame here (h here .here)).symm
  induction links, here, rest using locateFrom.induct d follow with
  | case1 links here => rw [locateFrom, locateFrom]
  | case2 links here component rest hnone =>
    rw [locateFrom, locateFrom, hhere hclear, hnone]
  | case3 links here component rest bytes hfile =>
    rw [locateFrom, locateFrom, hhere hclear, hfile]
  | case4 links here component rest target hlink =>
    rw [locateFrom, locateFrom, hhere hclear, hlink]
  | case5 links here component rest directory idle ih =>
    have hidle : component = "" ∨ component = "." := by simpa using idle
    rw [locateFrom, locateFrom, hhere hclear, directory]
    simp only [if_pos idle]
    exact ih fun p hp => hclear p (.idle hidle hp)
  | case6 links here rest directory idle ih =>
    rw [locateFrom, locateFrom, hhere hclear, directory]
    simp only [if_neg idle, if_true]
    exact ih fun p hp => hclear p (.up hp)
  | case7 links here component rest directory idle up target link last =>
    rw [locateFrom, locateFrom, hhere hclear, directory]
    simp only [if_neg idle, if_neg up, link, (hlinks _ _).mp link, if_pos last]
  | case8 here component rest directory idle up target link inner =>
    rw [locateFrom, locateFrom, hhere hclear, directory]
    simp only [if_neg idle, if_neg up, link, (hlinks _ _).mp link, if_neg inner]
  | case9 here component rest directory idle up target link inner links ih =>
    have hidle : ¬(component = "" ∨ component = ".") := by simpa using idle
    rw [locateFrom, locateFrom, hhere hclear, directory]
    simp only [if_neg idle, if_neg up, link, (hlinks _ _).mp link, if_neg inner]
    exact ih fun p hp => hclear p (.jump hidle up link (by simpa using hp))
  | case10 links here component rest directory idle up link ih =>
    have hidle : ¬(component = "" ∨ component = ".") := by simpa using idle
    have hnone : ∀ target, d'.lookup (here ++ [component]) ≠ some (.link target) :=
      hlinks.ne_link link
    rw [locateFrom, locateFrom, hhere hclear, directory]
    simp only [if_neg idle, if_neg up]
    exact ih fun p hp => hclear p (.enter hidle up link hp)

/-- **A path leads to the same place**, or fails alike, on disks that differ only off its way. -/
theorem locate_congr (hlinks : d.SameLinks d') (hsame : ∀ p, ¬X p → d.lookup p = d'.lookup p)
    (hclear : d.Clear path X) : d.locate follow path = d'.locate follow path :=
  locateFrom_congr hlinks hsame hclear

/-- What stands there is the same. -/
theorem lookup_congr (hlinks : d.SameLinks d') (hsame : ∀ p, ¬X p → d.lookup p = d'.lookup p)
    (hclear : d.Clear path X) (hlocate : d.locate follow path = .ok place) :
    d.lookup place = d'.lookup place := by
  by_cases hlink : ∃ target, d.lookup place = some (.link target)
  · obtain ⟨target, htarget⟩ := hlink
    rw [htarget, (hlinks _ _).mp htarget]
  · have hgo := (locate_iff_leads.mp hlocate).followed (not_exists.mp hlink)
    exact hsame place (hclear place hgo.visits)

/-- So what is found is the same. -/
theorem find_eq_of_clear (hlinks : d.SameLinks d') (hsame : ∀ p, ¬X p → d.lookup p = d'.lookup p)
    (hclear : d.Clear path X) : d.find path = d'.find path := by
  have hlocate : d.locate true path = d'.locate true path := locate_congr hlinks hsame hclear
  cases hplace : d.locate true path with
  | error e => simp only [find, ← hlocate, hplace]
  | ok place => simp only [find, ← hlocate, hplace, lookup_congr hlinks hsame hclear hplace]

/-- And what is read. -/
theorem read_eq_of_clear (hlinks : d.SameLinks d') (hsame : ∀ p, ¬X p → d.lookup p = d'.lookup p)
    (hclear : d.Clear path X) : d.read path = d'.read path := by
  simp only [read, find_eq_of_clear hlinks hsame hclear]

/-! ## Components at the beginning -/

/-- A path without the slashes at its end has the first components of the path. -/
theorem splitOn_withoutEndSlashes (path : String) :
    splitOn '/' (withoutEndSlashes path) <+: splitOn '/' path := by
  obtain ⟨n, hpath⟩ := eq_dropEndSlashes_append path.toList
  change splitOn '/' (if (dropEndSlashes path.toList).isEmpty && isAbsolute path then "/"
    else String.ofList (dropEndSlashes path.toList)) <+: _
  generalize dropEndSlashes path.toList = kept at hpath
  have hsplit : splitOn '/' path = splitOn '/' (String.ofList kept) ++ List.replicate n "" := by
    rw [splitOn, splitOnChar, hpath, piecesAt_append_replicate, List.map_append, List.map_replicate,
      splitOn, splitOnChar, String.toList_ofList]
  split
  · next htop =>
    rw [Bool.and_eq_true, List.isEmpty_iff] at htop
    rw [htop.1] at hsplit hpath
    -- there is a slash, so the path has two empty components at least
    cases n with
    | zero =>
      rw [isAbsolute, hpath] at htop
      exact absurd htop.2 (by decide)
    | succ n =>
      rw [hsplit, List.replicate_succ]
      exact ⟨List.replicate n "", rfl⟩
  · exact ⟨_, hsplit.symm⟩

/-- What is left of the pieces of a path are its first ones. -/
theorem dropIdleEnd_isPrefix (pieces : List String) : dropIdleEnd pieces <+: pieces := by
  have hsuffix := List.dropWhile_suffix (fun piece => !isNaming piece) (l := pieces.reverse)
  rw [dropIdleEnd, ← List.reverse_reverse pieces]
  simpa using List.reverse_prefix.mpr hsuffix

/-- The directory that a path lies in has the first components of the path, or none that names
something. -/
theorem splitOn_parent? {parent : String} (h : parent? path = some parent) :
    splitOn '/' parent <+: splitOn '/' path ∨ ∀ c ∈ splitOn '/' parent, c = "" ∨ c = "." := by
  have hidle : ∀ q ∈ ["", "/", "."], ∀ c ∈ splitOn '/' q, c = "" ∨ c = "." := by decide +kernel
  rw [parent?] at h
  split at h
  · split_ifs at h
    cases h
    exact .inr (hidle "" (by simp))
  · split at h
    · cases h
      refine .inr (hidle _ ?_)
      split_ifs <;> simp
    · cases h
      exact .inr (hidle "/" (by simp))
    · next rest hne _ =>
      cases h
      -- the pieces that are joined are the first ones of the path
      have hfirst := ((dropIdleEnd_isPrefix _).trans (List.dropLast_prefix _)).trans
        (dropIdleEnd_isPrefix (splitOn '/' path))
      left
      rwa [← ofComponents, splitOn_intercalate hne fun piece hpiece =>
        slash_notMem_of_mem_splitOn (hfirst.mem hpiece)]

/-- Components at the beginning of the path of the directory that a path lies in, if they lead
anywhere but to the top, stand at the beginning of the path. -/
theorem prefix_of_parent? {parent : String} (hparent : parent? path = some parent)
    (hfront : front <+: splitOn '/' parent) (h : Leads d true links [] front p) (hp : p ≠ []) :
    front <+: splitOn '/' path := by
  rcases splitOn_parent? hparent with hprefix | hidle
  · exact hfront.trans hprefix
  · exact absurd (h.visits.eq_of_idle fun c hc => hidle c (hfront.mem hc)) hp

/-! ## New directories -/

/-- Making one directory puts it where the path leads. -/
theorem leads_of_makeDirectory (hnone : d.lookup p = none)
    (hnew : ((makeDirectory path).after d).lookup p = some .directory) :
    Leads ((makeDirectory path).after d) true maxLinks [] (splitOn '/' (withoutEndSlashes path))
      p := by
  have hgrows := grows_after_makeDirectory path d
  rw [Change.after] at hnew hgrows ⊢
  cases hmake : makeDirectory path d with
  | error e d' =>
    obtain rfl := (grows_makeDirectory path d).2 e d' hmake
    rw [hmake] at hnew
    dsimp only at hnew
    rw [hnone] at hnew
    cases hnew
  | ok _ d' =>
    rw [hmake] at hnew hgrows
    dsimp only at hnew hgrows ⊢
    rw [makeDirectory] at hmake
    split at hmake
    · cases hmake
    · next place hlocate =>
      split at hmake
      · cases hmake
      · next hplace =>
        cases hmake
        have hne : place ≠ [] := by
          rintro rfl
          cases hplace
        rw [lookup_put hne] at hnew
        split_ifs at hnew with hp
        · subst hp
          exact hgrows.leads ((locate_iff_leads.mp hlocate).followed (by rw [hplace]; simp))
        · rw [hnone] at hnew
          cases hnew

/-- **Directories are made on the way of a path**: a new one stands where some components at its
beginning lead. -/
theorem front_of_makeDirectories (hnone : d.lookup p = none)
    (hnew : ((makeDirectories path).after d).lookup p = some .directory) :
    ∃ front, front <+: splitOn '/' path ∧
      Leads ((makeDirectories path).after d) true maxLinks [] front p := by
  rw [makeDirectories] at hnew ⊢
  generalize path.length + 1 = fuel at hnew ⊢
  induction fuel generalizing path d with
  | zero =>
    rw [show (makeDirectoriesFrom 0 path).after d = d from rfl, hnone] at hnew
    cases hnew
  | succ fuel ih =>
    have hlast {d : Disk} (hnone : d.lookup p = none)
        (hnew : ((makeDirectory path).after d).lookup p = some .directory) :
        ∃ front, front <+: splitOn '/' path ∧
          Leads ((makeDirectory path).after d) true maxLinks [] front p :=
      ⟨_, splitOn_withoutEndSlashes path, leads_of_makeDirectory hnone hnew⟩
    rcases after_makeDirectoriesFrom fuel path d with h | h | ⟨parent, hparent, h⟩
    · rw [h, hnone] at hnew
      cases hnew
    · rw [h] at hnew ⊢
      exact hlast hnone hnew
    · have hparents := grows_after_makeDirectoriesFrom fuel parent d
      have hafter : ((makeDirectoriesFrom fuel parent).after d).Grows
          ((makeDirectoriesFrom (fuel + 1) path).after d) := by
        rcases h with h | h <;> rw [h]
        · exact .refl _
        · exact grows_after_makeDirectory path _
      rcases hparents p with hsame | ⟨-, hmade⟩
      · rw [hnone] at hsame
        rcases h with h | h <;> rw [h] at hnew ⊢
        · rw [hsame] at hnew
          cases hnew
        · exact hlast hsame hnew
      · -- a directory on the way to the parent is one on the way
        obtain ⟨front, hfront, hleads⟩ := ih hnone hmade
        refine ⟨front, prefix_of_parent? hparent hfront hleads ?_, hafter.leads hleads⟩
        rintro rfl
        cases hnone

end CodeAtlas.Disk
