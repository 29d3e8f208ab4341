import CodeAtlas.Disk.Basic
import CodeAtlas.Proofs.Path.Names

/-!
# Where paths lead

Setup: `Disk.Leads` says by which steps a path leads to a place, and **`Disk.locate_iff_leads`**
that these are the steps of the program. Everything here is an induction over the steps:

* **`Disk.locate_join`** — a name behind a directory leads to the entry of that name in the
  directory;
* **`Disk.Leads.mono`** — more directories change no steps, and neither does what the files hold
  (**`Disk.Leads.transport`**);
* `Disk.Leads.withoutEmpty`, `Disk.Leads.unfollowed` — slashes at the end, and links at the end.
-/

namespace CodeAtlas.Disk

open CodeAtlas.Path CodeAtlas.Text

/-- The components `rest`, followed from `here`, lead to a place. -/
inductive Leads (d : Disk) (follow : Bool) : Nat → Place → List String → Place → Prop where
  /-- nothing is left to follow -/
  | arrive {links : Nat} {here : Place} : Leads d follow links here [] here
  /-- a component that names nothing -/
  | idle {links : Nat} {here place : Place} {component : String} {rest : List String}
      (directory : d.lookup here = some .directory) (idle : component = "" ∨ component = ".")
      (go : Leads d follow links here rest place) :
      Leads d follow links here (component :: rest) place
  /-- one directory up -/
  | up {links : Nat} {here place : Place} {rest : List String}
      (directory : d.lookup here = some .directory)
      (go : Leads d follow links here.dropLast rest place) :
      Leads d follow links here (".." :: rest) place
  /-- a link at the end that is not followed -/
  | stay {links : Nat} {here : Place} {component target : String}
      (directory : d.lookup here = some .directory) (idle : ¬(component = "" ∨ component = "."))
      (up : component ≠ "..") (link : d.lookup (here ++ [component]) = some (.link target))
      (last : follow = false) : Leads d follow links here [component] (here ++ [component])
  /-- a link that is followed -/
  | jump {links : Nat} {here place : Place} {component target : String} {rest : List String}
      (directory : d.lookup here = some .directory) (idle : ¬(component = "" ∨ component = "."))
      (up : component ≠ "..") (link : d.lookup (here ++ [component]) = some (.link target))
      (inner : follow = true ∨ rest ≠ [])
      (go : Leads d follow links (if isAbsolute target then [] else here)
        (splitOn '/' target ++ rest) place) :
      Leads d follow (links + 1) here (component :: rest) place
  /-- an entry of the directory that is no link, or one that does not exist -/
  | enter {links : Nat} {here place : Place} {component : String} {rest : List String}
      (directory : d.lookup here = some .directory) (idle : ¬(component = "" ∨ component = "."))
      (up : component ≠ "..")
      (link : ∀ target, d.lookup (here ++ [component]) ≠ some (.link target))
      (go : Leads d follow links (here ++ [component]) rest place) :
      Leads d follow links here (component :: rest) place

variable {d : Disk} {follow : Bool} {links : Nat} {here place : Place} {rest : List String}

/-- The program takes these steps. -/
theorem locateFrom_of_leads (h : Leads d follow links here rest place) :
    d.locateFrom follow links here rest = .ok place := by
  induction h with
  | arrive => rw [locateFrom]
  | idle directory idle _ ih =>
    rw [locateFrom, directory]
    simpa only [Bool.or_eq_true, decide_eq_true_eq, if_pos idle] using ih
  | up directory _ ih =>
    rw [locateFrom, directory]
    simpa using ih
  | stay directory idle up link last =>
    rw [locateFrom, directory]
    simp only [Bool.or_eq_true, decide_eq_true_eq, if_neg idle, if_neg up, link, last]
    rfl
  | @jump _ _ _ _ _ rest directory idle up link inner _ ih =>
    rw [locateFrom, directory]
    have hgo : ¬(!follow && rest.isEmpty) = true := by
      rcases inner with hfollow | hrest
      · rw [hfollow]; simp
      · rw [List.isEmpty_eq_false_iff.mpr hrest]; simp
    simp only [Bool.or_eq_true, decide_eq_true_eq, if_neg idle, if_neg up, link, if_neg hgo]
    simpa using ih
  | enter directory idle up link _ ih =>
    rw [locateFrom, directory]
    simp only [Bool.or_eq_true, decide_eq_true_eq, if_neg idle, if_neg up]
    exact ih

/-- The program takes no other steps. -/
theorem leads_of_locateFrom (h : d.locateFrom follow links here rest = .ok place) :
    Leads d follow links here rest place := by
  induction links, here, rest using locateFrom.induct d follow with
  | case1 links here => rw [locateFrom] at h; cases h; exact .arrive
  | case2 links here component rest hnone => rw [locateFrom, hnone] at h; cases h
  | case3 links here component rest bytes hfile => rw [locateFrom, hfile] at h; cases h
  | case4 links here component rest target hlink => rw [locateFrom, hlink] at h; cases h
  | case5 links here component rest directory idle ih =>
    rw [locateFrom, directory] at h
    simp only [if_pos idle] at h
    exact .idle directory (by simpa using idle) (ih h)
  | case6 links here rest directory idle ih =>
    rw [locateFrom, directory] at h
    exact .up directory (ih (by simpa using h))
  | case7 links here component rest directory idle up target link last =>
    rw [locateFrom, directory] at h
    simp only [if_neg idle, if_neg up, link, if_pos last] at h
    obtain ⟨hfollow, hrest⟩ : follow = false ∧ rest = [] := by simpa using last
    cases h
    subst hrest
    exact .stay directory (by simpa using idle) up link hfollow
  | case8 here component rest directory idle up target link inner =>
    rw [locateFrom, directory] at h
    simp only [if_neg idle, if_neg up, link, if_neg inner] at h
    cases h
  | case9 here component rest directory idle up target link inner links ih =>
    rw [locateFrom, directory] at h
    simp only [if_neg idle, if_neg up, link, if_neg inner] at h
    refine .jump directory (by simpa using idle) up link ?_ (ih (by simpa using h))
    cases follow
    · exact .inr (by simpa using inner)
    · exact .inl rfl
  | case10 links here component rest directory idle up link ih =>
    rw [locateFrom, directory] at h
    simp only [if_neg idle, if_neg up] at h
    exact .enter directory (by simpa using idle) up link (ih h)

/-- **A path leads to a place by the steps of the program.** -/
theorem locate_iff_leads {path : String} :
    d.locate follow path = .ok place ↔ Leads d follow maxLinks [] (splitOn '/' path) place :=
  ⟨leads_of_locateFrom, locateFrom_of_leads⟩

/-! ## Going on

A path that leads to a directory can be gone on with a name. The steps stay the same; only the last
one is new, so the induction carries the name along at the end of the components. -/

namespace Leads

/-- One more component goes on from where the others lead. -/
theorem concat {last : String} {place' : Place} (h : Leads d true links here rest place)
    (hlast : ∀ links, Leads d follow links place [last] place') :
    Leads d follow links here (rest ++ [last]) place' := by
  induction h with
  | arrive => exact hlast _
  | idle here idle _ ih => exact .idle here idle (ih hlast)
  | up here _ ih => exact .up here (ih hlast)
  | stay _ _ _ _ last => cases last
  | jump here idle up target inner _ ih =>
    have := ih hlast
    rw [List.append_assoc] at this
    exact .jump here idle up target
      (.inr (List.append_ne_nil_of_right_ne_nil _ (List.cons_ne_nil _ _))) this
  | enter here idle up other _ ih => exact .enter here idle up other (ih hlast)

/-- A name after a directory leads to the entry of that name, unless the entry is a link. -/
theorem append {name : String} (h : Leads d true links here rest place)
    (directory : d.lookup place = some .directory) (hname : IsName name)
    (link : ∀ target, d.lookup (place ++ [name]) ≠ some (.link target)) :
    Leads d follow links here (rest ++ [name]) (place ++ [name]) :=
  h.concat fun _ => .enter directory (not_or.mpr ⟨hname.ne_empty, hname.ne_dot⟩) hname.ne_dots link
    .arrive

/-- On a disk with the same links, and with these directories and perhaps more, the same steps lead
to the same place. -/
theorem mono {d' : Disk}
    (directories : ∀ p, d.lookup p = some .directory → d'.lookup p = some .directory)
    (links_iff : ∀ p target, d.lookup p = some (.link target) ↔ d'.lookup p = some (.link target))
    (h : Leads d follow links here rest place) : Leads d' follow links here rest place := by
  induction h with
  | arrive => exact .arrive
  | idle here idle _ ih => exact .idle (directories _ here) idle ih
  | up here _ ih => exact .up (directories _ here) ih
  | stay here idle up link last =>
    exact .stay (directories _ here) idle up ((links_iff _ _).mp link) last
  | jump here idle up link inner _ ih =>
    exact .jump (directories _ here) idle up ((links_iff _ _).mp link) inner ih
  | enter here idle up link _ ih =>
    exact .enter (directories _ here) idle up
      (fun target htarget => link target ((links_iff _ _).mpr htarget)) ih

/-- An empty component at the end leads nowhere else. -/
theorem withoutEmpty {parts : List String} (h : Leads d true links here (parts ++ [""]) place) :
    Leads d true links here parts place := by
  generalize hall : parts ++ [""] = all at h
  induction h generalizing parts with
  | arrive => exact absurd hall (by simp)
  | idle here idle go ih =>
    cases parts with
    | nil => cases hall; cases go; exact .arrive
    | cons part parts => cases hall; exact .idle here idle (ih rfl)
  | up here go ih =>
    cases parts with
    | nil => exact absurd hall (by simp)
    | cons part parts => cases hall; exact .up here (ih rfl)
  | stay _ _ _ _ last => cases last
  | jump here idle up target _ go ih =>
    cases parts with
    | nil => cases hall; exact absurd (.inl rfl) idle
    | cons part parts =>
      cases hall
      exact .jump here idle up target (.inl rfl) (ih (List.append_assoc ..))
  | enter here idle up other go ih =>
    cases parts with
    | nil => cases hall; exact absurd (.inl rfl) idle
    | cons part parts => cases hall; exact .enter here idle up other (ih rfl)

/-- A path whose last link is not followed leads to something as well. -/
theorem unfollowed (h : Leads d true links here rest place) (hthere : (d.lookup place).isSome) :
    ∃ place', Leads d false links here rest place' ∧ (d.lookup place').isSome := by
  induction h with
  | arrive => exact ⟨_, .arrive, hthere⟩
  | idle here idle _ ih =>
    obtain ⟨place', go, hplace'⟩ := ih hthere
    exact ⟨place', .idle here idle go, hplace'⟩
  | up here _ ih =>
    obtain ⟨place', go, hplace'⟩ := ih hthere
    exact ⟨place', .up here go, hplace'⟩
  | stay _ _ _ _ last => cases last
  | @jump _ _ _ _ _ rest here idle up target _ _ ih =>
    -- the link at the end is where it stops
    cases rest with
    | nil => exact ⟨_, .stay here idle up target rfl, by rw [target]; rfl⟩
    | cons component rest =>
      obtain ⟨place', go, hplace'⟩ := ih hthere
      exact ⟨place', .jump here idle up target (.inr (List.cons_ne_nil _ _)) go, hplace'⟩
  | enter here idle up other _ ih =>
    obtain ⟨place', go, hplace'⟩ := ih hthere
    exact ⟨place', .enter here idle up other go, hplace'⟩

/-- Where there are no links, a path leads to an entry of its last name. -/
theorem eq_concat_of_name {name : String} (h : Leads d true links here (rest ++ [name]) place)
    (hname : IsName name) (hlinks : ∀ p target, d.lookup p ≠ some (.link target)) :
    ∃ front, place = front ++ [name] := by
  generalize hall : rest ++ [name] = all at h
  induction h generalizing rest with
  | arrive => exact absurd hall (by simp)
  | idle here idle go ih =>
    cases rest with
    | nil => cases hall; exact absurd idle (not_or.mpr ⟨hname.ne_empty, hname.ne_dot⟩)
    | cons part rest => cases hall; exact ih rfl
  | up here go ih =>
    cases rest with
    | nil => cases hall; exact absurd rfl hname.ne_dots
    | cons part rest => cases hall; exact ih rfl
  -- no step follows a link or stops at one
  | stay _ _ _ link => exact absurd link (hlinks _ _)
  | jump _ _ _ link => exact absurd link (hlinks _ _)
  | enter here idle up link go ih =>
    cases rest with
    | nil => cases hall; cases go; exact ⟨_, rfl⟩
    | cons part rest => cases hall; exact ih rfl

end Leads

/-- A name behind a directory goes on from there. -/
theorem locate_join_of_leads {directory name : String} {place' : Place}
    (h : d.locate true directory = .ok place)
    (hname : IsName name) (hlast : ∀ links, Leads d follow links place [name] place') :
    d.locate follow (join directory name) = .ok place' := by
  rw [locate_iff_leads] at h ⊢
  rcases splitOn_join directory hname.slash with hjoin | ⟨parts, hdirectory, hjoin⟩
  · rw [hjoin]
    exact h.concat hlast
  · rw [hjoin]
    rw [hdirectory] at h
    exact h.withoutEmpty.concat hlast

/-- **A name behind a directory leads to the entry of that name.** -/
theorem locate_join (follow : Bool) {directory name : String}
    (h : d.locate true directory = .ok place)
    (hplace : d.lookup place = some .directory) (hname : IsName name)
    (hlink : ∀ target, d.lookup (place ++ [name]) ≠ some (.link target)) :
    d.locate follow (join directory name) = .ok (place ++ [name]) :=
  locate_join_of_leads h hname fun _ =>
    .enter hplace (not_or.mpr ⟨hname.ne_empty, hname.ne_dot⟩) hname.ne_dots hlink .arrive

/-- A link of that name is not followed where none is to be. -/
theorem locate_join_link {directory name target : String} (h : d.locate true directory = .ok place)
    (hplace : d.lookup place = some .directory) (hname : IsName name)
    (hlink : d.lookup (place ++ [name]) = some (.link target)) :
    d.locate false (join directory name) = .ok (place ++ [name]) :=
  locate_join_of_leads h hname fun _ =>
    .stay hplace (not_or.mpr ⟨hname.ne_empty, hname.ne_dot⟩) hname.ne_dots hlink rfl

/-! ## What stands at a path -/

/-- Something is found at a path when it stands where the path leads. -/
theorem find_eq_ok_iff {path : String} {entry : Entry} : d.find path = .ok entry ↔
    ∃ place, d.locate true path = .ok place ∧ d.lookup place = some entry := by
  rw [find]
  cases d.locate true path with
  | error e => simp
  | ok place => cases hentry : d.lookup place <;> simp [hentry]

/-- Bytes are read at a path when a file with these bytes stands there. -/
theorem read_eq_ok_iff {path : String} {bytes : ByteArray} : d.read path = .ok bytes ↔
    ∃ place, d.locate true path = .ok place ∧ d.lookup place = some (.file bytes) := by
  rw [← find_eq_ok_iff, read]
  split <;> simp_all

/-- A path names a file when one stands there. -/
theorem isFile_iff {path : String} : d.isFile path = true ↔
    ∃ place bytes, d.locate true path = .ok place ∧ d.lookup place = some (.file bytes) := by
  rw [exists_comm]
  simp only [← find_eq_ok_iff, isFile]
  split <;> simp_all

/-! ## Disks with the same ways -/

/-- Nothing, or a file: no way leads through it. -/
def Dead : Option Entry → Prop
  | none => True
  | some (.file _) => True
  | some .directory => False
  | some (.link _) => False

/-- The disks differ at most in their files. -/
def SameWays (d d' : Disk) : Prop :=
  ∀ place, d.lookup place = d'.lookup place ∨ (Dead (d.lookup place) ∧ Dead (d'.lookup place))

theorem SameWays.symm {d d' : Disk} (h : d.SameWays d') : d'.SameWays d :=
  fun place => (h place).imp Eq.symm And.symm

/-- What is no file stands on the second disk as well. -/
theorem SameWays.lookup_of_some {d d' : Disk} (h : d.SameWays d') {entry : Entry}
    (hentry : ¬Dead (some entry)) (hplace : d.lookup place = some entry) :
    d'.lookup place = some entry := by
  rcases h place with hsame | ⟨hdead, -⟩
  · rw [← hsame, hplace]
  · rw [hplace] at hdead
    exact absurd hdead hentry

/-- The directories are the same. -/
theorem SameWays.directory {d d' : Disk} (h : d.SameWays d')
    (hplace : d.lookup place = some .directory) : d'.lookup place = some .directory :=
  h.lookup_of_some id hplace

/-- The links are the same. -/
theorem SameWays.link_iff {d d' : Disk} (h : d.SameWays d') {target : String} :
    d.lookup place = some (.link target) ↔ d'.lookup place = some (.link target) :=
  ⟨h.lookup_of_some id, h.symm.lookup_of_some id⟩

/-- **A path leads to the same place on both.** -/
theorem Leads.transport {d d' : Disk} (hways : d.SameWays d')
    (h : Leads d follow links here rest place) : Leads d' follow links here rest place :=
  h.mono (fun _ => hways.directory) fun _ _ => hways.link_iff

/-- Paths lead to the same places on both. -/
theorem SameWays.locate_iff {d d' : Disk} (h : d.SameWays d') {path : String} :
    d.locate follow path = .ok place ↔ d'.locate follow path = .ok place := by
  rw [locate_iff_leads, locate_iff_leads]
  exact ⟨Leads.transport h, Leads.transport h.symm⟩

end CodeAtlas.Disk
