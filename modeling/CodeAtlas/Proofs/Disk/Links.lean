import CodeAtlas.Proofs.Disk.Grow

/-!
# Where links let a path lead

Setup: whether a path leads anywhere depends on the directories on its way, but where it leads
depends on the links alone. **`Disk.SameLinks.locate_unique`** says that of two disks with the same
links, so every path has one place that it aims at (`Disk.Aims`, `Disk.exists_aims`).

The second half takes paths apart: a path that ends in a name leads into the directory in front of
it (**`Disk.locate_join_inv`**), and where no link stands on the way so does a path that ends in
several names (**`Disk.locate_pathBelow_inv`**).
-/

namespace CodeAtlas.Disk

open CodeAtlas.Path CodeAtlas.Text

variable {d d' d'' : Disk} {follow : Bool} {links links' : Nat} {here place place' : Place}
  {rest : List String} {path : String}

/-- The same links stand on both disks. -/
def SameLinks (d d' : Disk) : Prop :=
  ∀ place target, d.lookup place = some (.link target) ↔ d'.lookup place = some (.link target)

namespace SameLinks

theorem refl (d : Disk) : d.SameLinks d :=
  fun _ _ => .rfl

theorem symm (h : d.SameLinks d') : d'.SameLinks d :=
  fun place target => (h place target).symm

theorem trans (h : d.SameLinks d') (h' : d'.SameLinks d'') : d.SameLinks d'' :=
  fun place target => (h place target).trans (h' place target)

/-- Where no link stood none stands. -/
theorem ne_link (h : d.SameLinks d') (hplace : ∀ target, d.lookup place ≠ some (.link target))
    (target : String) : d'.lookup place ≠ some (.link target) :=
  fun hlink => hplace target ((h place target).mpr hlink)

end SameLinks

/-- New directories are no links. -/
theorem Grows.sameLinks (h : d.Grows d') : d.SameLinks d' :=
  fun _ _ => (h.lookup_iff (by simp)).symm

/-- Files are no links. -/
theorem SameWays.sameLinks (h : d.SameWays d') : d.SameLinks d' :=
  fun _ _ => h.link_iff

/-! ## The place of a path -/

/-- The steps that two disks with the same links allow are the same. -/
theorem Leads.unique (hlinks : d.SameLinks d') (h : Leads d follow links here rest place)
    (h' : Leads d' follow links' here rest place') : place = place' := by
  induction h generalizing links' with
  | arrive => cases h'; rfl
  | idle _ idle _ ih =>
    cases h' with
    | idle _ _ go => exact ih go
    | up => simp at idle
    | stay _ other | jump _ other | enter _ other => exact absurd idle other
  | up _ _ ih =>
    cases h' with
    | idle _ other => simp at other
    | up _ go => exact ih go
    | stay _ _ up | jump _ _ up | enter _ _ up => exact absurd rfl up
  | stay _ idle up link last =>
    cases h' with
    | idle _ other => exact absurd other idle
    | up => exact absurd rfl up
    | stay => rfl
    | jump _ _ _ _ inner => simp [last] at inner
    | enter _ _ _ other => exact absurd ((hlinks _ _).mp link) (other _)
  | jump _ idle up link inner _ ih =>
    cases h' with
    | idle _ other => exact absurd other idle
    | up => exact absurd rfl up
    | stay _ _ _ _ last => simp [last] at inner
    | jump _ _ _ other _ go =>
      rw [(hlinks _ _).mp link] at other
      cases other
      exact ih go
    | enter _ _ _ other => exact absurd ((hlinks _ _).mp link) (other _)
  | enter _ idle up link _ ih =>
    cases h' with
    | idle _ other => exact absurd other idle
    | up => exact absurd rfl up
    | stay _ _ _ other | jump _ _ _ other => exact absurd ((hlinks _ _).mpr other) (link _)
    | enter _ _ _ _ go => exact ih go

/-- **A path leads to one place** on disks with the same links, or nowhere. -/
theorem SameLinks.locate_unique (h : d.SameLinks d') (hd : d.locate follow path = .ok place)
    (hd' : d'.locate follow path = .ok place') : place = place' :=
  Leads.unique h (locate_iff_leads.mp hd) (locate_iff_leads.mp hd')

/-- With the links of this disk the path leads to the place or nowhere, whatever else stands there.
-/
def Aims (d : Disk) (path : String) (place : Place) : Prop :=
  ∀ d', d.SameLinks d' → ∀ place', d'.locate true path = .ok place' → place' = place

/-- A path aims at the place that it leads to. -/
theorem aims_of_locate (h : d.locate true path = .ok place) : d.Aims path place :=
  fun _ hlinks _ h' => (hlinks.locate_unique h h').symm

/-- The links decide where a path aims. -/
theorem Aims.sameLinks (h : d.Aims path place) (hlinks : d.SameLinks d') : d'.Aims path place :=
  fun _ hlinks' => h _ (hlinks.trans hlinks')

/-- Every path aims at a place. -/
theorem exists_aims (d : Disk) (path : String) : ∃ place, d.Aims path place := by
  by_cases h : ∃ d' place, d.SameLinks d' ∧ d'.locate true path = .ok place
  · obtain ⟨d', place, hlinks, hlocate⟩ := h
    exact ⟨place, (aims_of_locate hlocate).sameLinks hlinks.symm⟩
  · exact ⟨[], fun d' hlinks place hlocate => absurd ⟨d', place, hlinks, hlocate⟩ h⟩

/-- Where links are followed to the end, none stands at the end: no link stands on the way so far.
-/
theorem Leads.ne_link (h : Leads d true links here rest place)
    (hhere : ∀ front, front <+: here → ∀ target, d.lookup front ≠ some (.link target)) :
    ∀ front, front <+: place → ∀ target, d.lookup front ≠ some (.link target) := by
  induction h with
  | arrive => exact hhere
  | idle _ _ _ ih => exact ih hhere
  | up _ _ ih => exact ih fun front hfront => hhere front (hfront.trans (List.dropLast_prefix _))
  | stay _ _ _ _ last => cases last
  | jump _ _ _ _ _ _ ih =>
    refine ih fun front hfront => ?_
    split at hfront
    · rw [List.prefix_nil.mp hfront]
      simp [lookup]
    · exact hhere front hfront
  | enter _ _ _ link _ ih =>
    refine ih fun front hfront => ?_
    rcases List.prefix_concat_iff.mp hfront with rfl | hfront
    · exact link
    · exact hhere front hfront

/-- A path whose links are followed leads to no link. -/
theorem locate_ne_link (h : d.locate true path = .ok place) (target : String) :
    d.lookup place ≠ some (.link target) := by
  refine (locate_iff_leads.mp h).ne_link (fun front hfront => ?_) place List.prefix_rfl target
  rw [List.prefix_nil.mp hfront]
  simp [lookup]

/-! ## Taking paths apart -/

namespace Leads

/-- The steps of some components come before those of the components after them. -/
theorem split {front : List String} (h : Leads d follow links here (front ++ rest) place)
    (hrest : rest ≠ []) :
    ∃ links' mid, Leads d true links here front mid ∧ Leads d follow links' mid rest place := by
  generalize hall : front ++ rest = all at h
  induction h generalizing front with
  | arrive => exact absurd hall (List.append_ne_nil_of_right_ne_nil _ hrest)
  | idle directory idle go ih =>
    cases front with
    | nil => cases hall; exact ⟨_, _, .arrive, .idle directory idle go⟩
    | cons part front =>
      cases hall
      obtain ⟨links', mid, hfront, hmid⟩ := ih rfl
      exact ⟨links', mid, .idle directory idle hfront, hmid⟩
  | up directory go ih =>
    cases front with
    | nil => cases hall; exact ⟨_, _, .arrive, .up directory go⟩
    | cons part front =>
      cases hall
      obtain ⟨links', mid, hfront, hmid⟩ := ih rfl
      exact ⟨links', mid, .up directory hfront, hmid⟩
  | stay directory idle up link last =>
    cases front with
    | nil => cases hall; exact ⟨0, _, .arrive, .stay directory idle up link last⟩
    | cons part front => simp [hrest] at hall
  | jump directory idle up link inner go ih =>
    cases front with
    | nil => cases hall; exact ⟨_, _, .arrive, .jump directory idle up link inner go⟩
    | cons part front =>
      cases hall
      obtain ⟨links', mid, hfront, hmid⟩ := ih (List.append_assoc ..)
      exact ⟨links', mid, .jump directory idle up link (.inl rfl) hfront, hmid⟩
  | enter directory idle up link go ih =>
    cases front with
    | nil => cases hall; exact ⟨_, _, .arrive, .enter directory idle up link go⟩
    | cons part front =>
      cases hall
      obtain ⟨links', mid, hfront, hmid⟩ := ih rfl
      exact ⟨links', mid, .enter directory idle up link hfront, hmid⟩

/-- An empty component after a directory leads nowhere else. -/
theorem withEmpty (h : Leads d true links here rest place)
    (directory : d.lookup place = some .directory) :
    Leads d true links here (rest ++ [""]) place := by
  induction h with
  | arrive => exact .idle directory (.inl rfl) .arrive
  | idle here idle _ ih => exact .idle here idle (ih directory)
  | up here _ ih => exact .up here (ih directory)
  | stay _ _ _ _ last => cases last
  | jump here idle up target _ _ ih =>
    have := ih directory
    rw [List.append_assoc] at this
    exact .jump here idle up target (.inl rfl) this
  | enter here idle up other _ ih => exact .enter here idle up other (ih directory)

/-- A name leads from a directory to the entry of that name, unless a link is followed there. -/
theorem name_inv {name : String} (h : Leads d follow links here [name] place)
    (hname : IsName name) :
    d.lookup here = some .directory ∧
      (follow = false ∨ (∀ target, d.lookup (here ++ [name]) ≠ some (.link target)) →
        place = here ++ [name]) := by
  cases h with
  | idle _ idle => exact absurd idle (not_or.mpr ⟨hname.ne_empty, hname.ne_dot⟩)
  | up => exact absurd rfl hname.ne_dots
  | stay directory => exact ⟨directory, fun _ => rfl⟩
  | jump directory _ _ link inner =>
    refine ⟨directory, fun hnot => ?_⟩
    rcases hnot with hfollow | hnone
    · simp [hfollow] at inner
    · exact absurd link (hnone _)
  | enter directory _ _ _ go =>
    refine ⟨directory, fun _ => ?_⟩
    cases go
    rfl

end Leads

/-- **A path that ends in a name** leads into the directory in front of the name, and to the entry
of the name there, unless a link is followed. -/
theorem locate_join_inv {directory name : String}
    (h : d.locate follow (join directory name) = .ok place) (hname : IsName name) :
    ∃ home, d.locate true directory = .ok home ∧ d.lookup home = some .directory ∧
      (follow = false ∨ (∀ target, d.lookup (home ++ [name]) ≠ some (.link target)) →
        place = home ++ [name]) := by
  rw [locate_iff_leads] at h
  rcases splitOn_join directory hname.slash with hjoin | ⟨parts, hdirectory, hjoin⟩
  · rw [hjoin] at h
    obtain ⟨_, home, hhome, hlast⟩ := h.split (List.cons_ne_nil _ _)
    obtain ⟨hplace, hentry⟩ := hlast.name_inv hname
    exact ⟨home, locate_iff_leads.mpr hhome, hplace, hentry⟩
  · rw [hjoin] at h
    obtain ⟨_, home, hhome, hlast⟩ := h.split (List.cons_ne_nil _ _)
    obtain ⟨hplace, hentry⟩ := hlast.name_inv hname
    refine ⟨home, locate_iff_leads.mpr ?_, hplace, hentry⟩
    rw [hdirectory]
    exact hhome.withEmpty hplace

/-- **A path that ends in names** leads to the place of these names below the directory in front of
them, where no links stand. -/
theorem locate_pathBelow_inv {directory : String} {names : List String} (hne : names ≠ [])
    (hnames : ∀ name ∈ names, IsName name)
    (h : d.locate true (pathBelow directory names) = .ok place)
    (hplain : ∀ home, d.locate true directory = .ok home → ∀ front, front ≠ [] → front <+: names →
      ∀ target, d.lookup (home ++ front) ≠ some (.link target)) :
    ∃ home, d.locate true directory = .ok home ∧ d.lookup home = some .directory ∧
      place = home ++ names := by
  induction names generalizing directory with
  | nil => exact absurd rfl hne
  | cons name names ih =>
    have hname := hnames name List.mem_cons_self
    cases names with
    | nil =>
      obtain ⟨home, hhome, hdirectory, hplace⟩ := locate_join_inv h hname
      exact ⟨home, hhome, hdirectory,
        hplace (.inr (hplain home hhome [name] (List.cons_ne_nil _ _) List.prefix_rfl))⟩
    | cons second names =>
      -- the directory of the further names is the entry of the first one
      have hstep : ∀ inner, d.locate true (join directory name) = .ok inner →
          ∃ home, d.locate true directory = .ok home ∧ d.lookup home = some .directory ∧
            inner = home ++ [name] := by
        intro inner hinner
        obtain ⟨home, hhome, hdirectory, hplace⟩ := locate_join_inv hinner hname
        exact ⟨home, hhome, hdirectory,
          hplace (.inr (hplain home hhome [name] (List.cons_ne_nil _ _)
          (List.prefix_append [name] _)))⟩
      obtain ⟨inner, hinner, -, hplace⟩ := ih (List.cons_ne_nil _ _)
        (fun n hn => hnames n (List.mem_cons_of_mem _ hn)) h
          fun inner hinner front hfront hprefix => by
          obtain ⟨home, hhome, -, rfl⟩ := hstep inner hinner
          rw [List.append_assoc]
          exact hplain home hhome (name :: front) (List.cons_ne_nil _ _)
            ((List.prefix_cons_inj name).mpr hprefix)
      obtain ⟨home, hhome, hdirectory, rfl⟩ := hstep inner hinner
      exact ⟨home, hhome, hdirectory, by rw [hplace, List.append_assoc]; rfl⟩

end CodeAtlas.Disk
