import CodeAtlas.Proofs.Restore.History

/-!
# What lies in the directory of a store

Setup: the path of a store leads to its directory without coming past what lies in it, and no links
lie there (`RestoreStore.Housed`). Then what a call does in the directory can be said place by
place: copying files aside changes the tree of the new point only
(**`RestoreStore.Housed.lookup_of_fills`**), an eviction takes the tree of its point and leaves the
way to the store open (**`RestoreStore.Housed.evicted`**), and writing the log touches the log and
its draft (**`RestoreStore.Housed.lookup_save`**).
-/

namespace CodeAtlas

open CodeAtlas.Disk CodeAtlas.Path CodeAtlas.Text

namespace RestoreStore

/-- What lies below a place. -/
def Inside (vault p : Place) : Prop :=
  ∃ more, more ≠ [] ∧ p = vault ++ more

/-- The path of the store leads to the place `vault`, if anywhere, without coming past what lies
there, and no links lie there. -/
structure Housed (s : RestoreStore) (vault : Place) (d : Disk) : Prop extends s.Seated vault d where
  /-- the path does not need what lies in the store -/
  clear : d.Clear s.directory (Inside vault)

variable {s : RestoreStore} {vault p : Place} {d d' : Disk} {id name directory : String}
  {names front : List String} {paths written : List String}

theorem not_inside_self (vault : Place) : ¬Inside vault vault := by
  rintro ⟨more, hmore, hsame⟩
  exact hmore (List.self_eq_append_right.mp hsame)

theorem inside_concat (vault : Place) (last : String) (more : List String) :
    Inside vault (vault ++ last :: more) :=
  ⟨last :: more, List.cons_ne_nil _ _, rfl⟩

/-- A tree lies inside. -/
theorem inside_of_isPrefix (h : vault ++ [id] <+: p) : Inside vault p := by
  obtain ⟨more, rfl⟩ := h
  rw [List.append_assoc]
  exact inside_concat vault id more

/-- Two names in the store are one when one stands in front of the other. -/
theorem eq_of_prefix_concat {a b : String} (h : vault ++ [a] <+: vault ++ [b]) : a = b := by
  rw [List.prefix_append_right_inj] at h
  simpa using h

/-- Two trees in the store are one when a place lies in both. -/
theorem eq_of_isPrefix {a b : String} (ha : vault ++ [a] <+: p) (hb : vault ++ [b] <+: p) :
    a = b :=
  eq_of_prefix_concat (List.prefix_of_prefix_length_le ha hb (by simp))

/-- The links decide whether a store is housed. -/
theorem Housed.sameLinks (h : s.Housed vault d) (hlinks : d.SameLinks d') : s.Housed vault d' :=
  ⟨h.toSeated.sameLinks hlinks, h.clear.sameLinks hlinks⟩

/-- What stands in front of the store does not lie in it. -/
theorem not_inside_of_isPrefix (h : p <+: vault) : ¬Inside vault p := by
  rintro ⟨more, hmore, rfl⟩
  obtain ⟨rest, hrest⟩ := h
  rw [List.append_assoc] at hrest
  exact hmore (List.append_eq_nil_iff.mp (List.self_eq_append_right.mp hrest.symm)).1

/-- A store is housed where its path goes down and there are no links. -/
theorem housed_of_plain (hlocate : d.locate true s.directory = .ok vault)
    (hup : ".." ∉ splitOn '/' s.directory) (hplain : ∀ q target, d.lookup q ≠ some (.link target)) :
    s.Housed vault d :=
  ⟨⟨aims_of_locate hlocate, fun _ _ => hplain _⟩,
    clear_of_plain hlocate hup hplain fun _ => not_inside_of_isPrefix⟩

/-! ## The beginning of a path of names -/

/-- Components at the beginning of a path that ends in a name: the whole path, or the beginning of
the directory's. -/
theorem front_join (hname : '/' ∉ name.toList) (h : front <+: splitOn '/' (join directory name)) :
    front = splitOn '/' (join directory name) ∨ front <+: splitOn '/' directory := by
  rcases splitOn_join directory hname with hjoin | ⟨parts, hparts, hjoin⟩
  · rw [hjoin] at h ⊢
    exact List.prefix_concat_iff.mp h
  · rw [hjoin] at h ⊢
    rw [hparts]
    exact (List.prefix_concat_iff.mp h).imp id fun hfront => hfront.trans (List.prefix_append _ _)

/-- Components at the beginning of a path of names: the beginning of the directory's, or the
directory's with some of the names. -/
theorem front_pathBelow (hnames : ∀ name ∈ names, IsName name)
    (h : front <+: splitOn '/' (pathBelow directory names)) :
    front <+: splitOn '/' directory ∨
      ∃ inner, inner ≠ [] ∧ inner <+: names ∧ front = splitOn '/' (pathBelow directory inner) := by
  induction names using List.reverseRecOn with
  | nil => exact .inl h
  | append_singleton names name ih =>
    have hlast : pathBelow directory (names ++ [name]) = join (pathBelow directory names) name := by
      rw [pathBelow, List.foldl_concat, ← pathBelow]
    rw [List.forall_mem_append, List.forall_mem_singleton] at hnames
    rcases front_join hnames.2.slash (hlast ▸ h) with hwhole | hfront
    · exact .inr ⟨names ++ [name], by simp, List.prefix_rfl, by rw [hlast, hwhole]⟩
    · rcases ih hnames.1 hfront with hdirectory | ⟨inner, hne, hinner, heq⟩
      · exact .inl hdirectory
      · exact .inr ⟨inner, hne, hinner.trans (List.prefix_append _ _), heq⟩

/-! ## Copying files aside -/

/-- Directories that are made on the way of the store do not lie in it. -/
theorem Housed.not_inside (h : s.Housed vault d) (hmade : MadeOn d [s.directory] p) :
    ¬Inside vault p :=
  h.clear.not_of_madeOn hmade

/-- Where the path of the store leads somewhere there is nothing to be made on its way. -/
theorem lookup_of_madeOn (hfound : d.locate true s.directory = .ok vault)
    (hdirectory : d.lookup vault = some .directory) (hlinks : d.SameLinks d')
    (hmade : MadeOn d' [s.directory] p) : d.lookup p = some .directory := by
  obtain ⟨path, hpath, front, ⟨rest, hrest⟩, hleads⟩ := hmade
  rw [List.mem_singleton.mp hpath] at hrest
  rw [locate_iff_leads, ← hrest] at hfound
  obtain ⟨mid, hmid, hthere⟩ := hfound.to_front hdirectory
  rwa [← hmid.unique hlinks hleads]

/-- Directories that are made on the way of a copy lie in the tree of its point or on the way of the
store. -/
theorem Housed.madeOn_copy (h : s.Housed vault d) (hid : IsName id) (hname : Named name)
    (hmade : MadeOn d [join (s.pointDirectory id) name] p) :
    vault ++ [id] <+: p ∨ MadeOn d [s.directory] p := by
  obtain ⟨path, hpath, front, hfront, hleads⟩ := hmade
  have hparts := hname.copyParts hid
  rw [List.mem_singleton.mp hpath, hname.copyPath_eq] at hfront
  rcases front_pathBelow hparts hfront with hdirectory | ⟨inner, hne, hinner, rfl⟩
  · exact .inr ⟨s.directory, List.mem_singleton.mpr rfl, front, hdirectory, hleads⟩
  · left
    -- the names lead from the store's place into the tree of the point
    obtain ⟨home, hhome, -, rfl⟩ := locate_pathBelow_inv hne
      (fun part hpart => hparts part (hinner.mem hpart))
      (locate_iff_leads.mpr hleads) fun home hhome more hmore _ => by
        rw [h.aims d (.refl d) home hhome]
        exact h.plain more hmore
    rw [h.aims d (.refl d) home hhome, List.prefix_append_right_inj]
    obtain ⟨first, rest, rfl⟩ := List.exists_cons_of_ne_nil hne
    rw [(List.cons_prefix_cons.mp hinner).1]
    exact ⟨rest, rfl⟩

/-- The paths of copies of one point. -/
def CopiesOf (s : RestoreStore) (id : String) (paths : List String) : Prop :=
  ∀ path ∈ paths, ∃ name, Named name ∧ path = join (s.pointDirectory id) name

/-- **Copying files aside** changes the tree of the point, and makes missing directories on the way
of the store. -/
theorem Housed.lookup_of_fills (h : s.Housed vault d) (hid : IsName id)
    (hfills : d.Fills d' paths written)
    (hpaths : s.CopiesOf id paths) (hwritten : s.CopiesOf id written) (p : Place) :
    d'.lookup p = d.lookup p ∨ vault ++ [id] <+: p ∨
      (d.lookup p = none ∧ d'.lookup p = some .directory ∧ MadeOn d' [s.directory] p) := by
  have h' := h.sameLinks hfills.sameLinks
  rcases hfills.lookup p with hsame | ⟨hnone, hnew, path, hpath, hmade⟩ | ⟨path, hpath, hlocate⟩
  · exact .inl hsame
  · obtain ⟨name, hname, rfl⟩ := hpaths path hpath
    rcases h'.madeOn_copy hid hname ⟨_, List.mem_singleton.mpr rfl, hmade⟩ with htree | hway
    · exact .inr (.inl htree)
    · exact .inr (.inr ⟨hnone, hnew, hway⟩)
  · obtain ⟨name, hname, rfl⟩ := hwritten path hpath
    rw [aims_copy h'.toSeated hid hname d' (.refl d') p hlocate]
    exact .inr (.inl (prefix_copyPlace_iff.mpr rfl))

/-! ## The way to a copy -/

/-- A relative path that leads down. -/
structure Inner (name : String) : Prop where
  /-- it does not start at the top -/
  relative : isAbsolute name = false
  /-- no component leads up -/
  down : ".." ∉ splitOn '/' name

theorem Named.inner (h : Named name) : Inner name where
  relative := by
    rw [← h.joined]
    exact isAbsolute_ofComponents h.parts
  down hmem := (h.parts _ hmem).ne_dots rfl

/-- The components of a copy's path: those of the store's path, without the empty one at its end,
the id, and those of the file's name. -/
theorem Inner.splitOn_copy (h : Inner name) (s : RestoreStore) (hid : IsName id) :
    ∃ front, (splitOn '/' s.directory = front ∨ splitOn '/' s.directory = front ++ [""]) ∧
      splitOn '/' (join (s.pointDirectory id) name) = front ++ id :: splitOn '/' name := by
  obtain ⟨front, hfront, hdirectory⟩ :
      ∃ front, (splitOn '/' s.directory = front ∨ splitOn '/' s.directory = front ++ [""]) ∧
        splitOn '/' (s.pointDirectory id) = front ++ [id] := by
    rcases splitOn_join s.directory hid.slash with hjoin | ⟨parts, hparts, hjoin⟩
    · exact ⟨_, .inl rfl, hjoin⟩
    · exact ⟨parts, .inr hparts, hjoin⟩
  refine ⟨front, hfront, ?_⟩
  rcases splitOn_join_of_relative (s.pointDirectory id) h.relative with hjoin | ⟨parts, hparts, -⟩
  · rw [hjoin, hdirectory, List.append_assoc, List.singleton_append]
  · rw [hdirectory] at hparts
    exact absurd (List.append_inj_right' hparts rfl) (by simpa using hid.ne_empty)

/-- **The path of a copy** leads into the tree of its point, past the store and the directory of the
point. -/
theorem Seated.copy_inv (h : s.Seated vault d) (hid : IsName id) (hname : Inner name)
    {place : Place} (hlocate : d.locate true (join (s.pointDirectory id) name) = .ok place) :
    (d.locate true s.directory = .ok vault ∧ d.lookup vault = some .directory) ∧
      vault ++ [id] <+: place ∧ d.lookup (vault ++ [id]) = some .directory := by
  obtain ⟨front, hfront, hcopy⟩ := hname.splitOn_copy s hid
  rw [locate_iff_leads, hcopy] at hlocate
  obtain ⟨links, home, hhome, hgo⟩ := hlocate.split (List.cons_ne_nil _ _)
  have hdown := hname.down
  have hparts := splitOn_ne_nil name
  generalize splitOn '/' name = parts at hgo hdown hparts
  have hdirectory : d.lookup home = some .directory := by
    cases hgo with
    | idle directory | up directory | stay directory | jump directory | enter directory =>
      exact directory
  have hfound : d.locate true s.directory = .ok home := by
    rw [locate_iff_leads]
    rcases hfront with hsame | hsame <;> rw [hsame]
    · exact hhome
    · exact hhome.withEmpty hdirectory
  obtain rfl := h.aims d (.refl d) home hfound
  refine ⟨⟨hfound, hdirectory⟩, ?_⟩
  cases hgo with
  | idle _ idle => exact absurd idle (not_or.mpr ⟨hid.ne_empty, hid.ne_dot⟩)
  | up => exact absurd rfl hid.ne_dots
  | stay _ _ _ _ last => cases last
  | jump _ _ _ link => exact absurd link (h.plain _ (List.cons_ne_nil _ _) _)
  | enter _ _ _ _ go =>
    constructor
    · refine go.visits.prefix_of_down hdown fun more _ => ?_
      rw [List.append_assoc]
      exact h.plain _ (List.cons_ne_nil _ _)
    · -- components follow, so the point has a directory
      cases go with
      | arrive => exact absurd rfl hparts
      | idle directory | up directory | stay directory | jump directory | enter directory =>
        exact directory

/-- What lies in the store, but not in the tree of one point. -/
def Beside (vault : Place) (id : String) (p : Place) : Prop :=
  Inside vault p ∧ ¬vault ++ [id] <+: p

/-- The path of a copy does not need what lies beside the tree of its point. -/
theorem Housed.clear_copy (h : s.Housed vault d) (hfound : d.locate true s.directory = .ok vault)
    (hid : IsName id) (hname : Inner name) :
    d.Clear (join (s.pointDirectory id) name) (Beside vault id) := by
  rintro p hvisits ⟨hinside, htree⟩
  obtain ⟨front, hfront, hcopy⟩ := hname.splitOn_copy s hid
  have hleads : Leads d true maxLinks [] front vault := by
    rw [locate_iff_leads] at hfound
    rcases hfront with hsame | hsame <;> rw [hsame] at hfound
    · exact hfound
    · exact hfound.withoutEmpty
  rw [hcopy] at hvisits
  rcases Visits.of_append hleads hvisits with hway | ⟨links, hway⟩
  · refine h.clear p ?_ hinside
    rcases hfront with hsame | hsame <;> rw [hsame]
    · exact hway
    · exact hway.append [""]
  · cases hway with
    | here => exact not_inside_self vault hinside
    | idle idle => exact absurd idle (not_or.mpr ⟨hid.ne_empty, hid.ne_dot⟩)
    | up => exact hid.ne_dots rfl
    | jump _ _ link => exact h.plain [id] (List.cons_ne_nil _ _) _ link
    | enter _ _ _ go =>
      refine htree (go.prefix_of_down hname.down fun more _ => ?_)
      rw [List.append_assoc]
      exact h.plain _ (List.cons_ne_nil _ _)

/-! ## Evicting -/

/-- A path that ends in a name ends in no dots. -/
theorem endsInDots_join (directory : String) (hname : IsName name) :
    endsInDots (join directory name) = false := by
  obtain ⟨parts, hparts⟩ : ∃ parts, splitOn '/' (join directory name) = parts ++ [name] := by
    rcases splitOn_join directory hname.slash with h | ⟨parts, -, h⟩
    · exact ⟨_, h⟩
    · exact ⟨parts, h⟩
  rw [endsInDots, hparts, List.reverse_append, List.reverse_singleton, List.singleton_append,
    List.dropWhile_cons_of_neg (by simpa using hname.ne_empty)]
  simp [hname.ne_dot, hname.ne_dots]

section

variable {gone points : List RestorePoint} {point : RestorePoint}

/-- Evictions change what lies in the store only. -/
theorem Housed.lookup_evict_of_not_inside (h : s.Housed vault d)
    (hids : ∀ point ∈ points, IsName point.id)
    (hp : ¬Inside vault p) : (s.evict points d).lookup p = d.lookup p := by
  refine lookup_evict_of_not_taken fun htaken => ?_
  obtain ⟨point, -, hprefix⟩ := prefix_of_taken hids h.aims htaken
  exact hp (inside_of_isPrefix hprefix)

/-- Evictions leave what is not in the trees of their points. -/
theorem Housed.lookup_evict_of_not_prefix (h : s.Housed vault d)
    (hids : ∀ point ∈ points, IsName point.id)
    (hp : ∀ point ∈ points, ¬vault ++ [point.id] <+: p) :
    (s.evict points d).lookup p = d.lookup p := by
  refine lookup_evict_of_not_taken fun htaken => ?_
  obtain ⟨point, hpoint, hprefix⟩ := prefix_of_taken hids h.aims htaken
  exact hp point hpoint hprefix

/-- Evictions leave the way to the store open. -/
theorem Housed.locate_evict (h : s.Housed vault d) (hids : ∀ point ∈ points, IsName point.id) :
    (s.evict points d).locate true s.directory = d.locate true s.directory :=
  (locate_congr (evict_keeps h.toSeated hids).1
    (fun _ hp => (h.lookup_evict_of_not_inside hids hp).symm) h.clear).symm

/-- An eviction takes the whole tree of its point. -/
theorem Housed.takes (h : s.Housed vault d) (hfound : d.locate true s.directory = .ok vault)
    (hdirectory : d.lookup vault = some .directory) (hid : IsName id)
    (htree : d.lookup (vault ++ [id]) = some .directory) (hp : vault ++ [id] <+: p) :
    Takes d (s.pointDirectory id) p := by
  have hlocate := locate_join false hfound hdirectory hid (h.plain [id] (List.cons_ne_nil _ _))
  refine ⟨vault ++ [id], hlocate, hp, .inr ⟨htree, fun hends => ?_⟩⟩
  rw [pointDirectory, endsInDots_join _ hid] at hends
  simp at hends

/-- **An eviction takes the tree of its point**, if the store is there. The induction follows the
evictions: those before it leave the tree alone. -/
theorem Housed.lookup_evict_of_mem (h : s.Housed vault d) (hids : ∀ point ∈ points, IsName point.id)
    (hfound : d.locate true s.directory = .ok vault) (hdirectory : d.lookup vault = some .directory)
    (hpoint : point ∈ points) (htree : d.lookup (vault ++ [point.id]) = some .directory)
    (hp : vault ++ [point.id] <+: p) : (s.evict points d).lookup p = none := by
  induction points generalizing d with
  | nil => cases hpoint
  | cons first points ih =>
    rw [List.forall_mem_cons] at hids
    by_cases hsame : first.id = point.id
    · exact lookup_evict_of_taken
        (.inl (hsame ▸ h.takes hfound hdirectory (hsame ▸ hids.1) htree hp))
    · have hmem : point ∈ points := by
        rcases List.mem_cons.mp hpoint with rfl | hmem
        · exact absurd rfl hsame
        · exact hmem
      have hfirst : ∀ q ∈ [first], IsName q.id := by simpa using hids.1
      have hother : ∀ q ∈ [first], ¬vault ++ [q.id] <+: vault ++ [point.id] := by
        intro q hq hprefix
        rw [List.mem_singleton.mp hq, List.prefix_append_right_inj] at hprefix
        exact hsame (by simpa using hprefix)
      rw [evict_cons]
      refine ih (h.sameLinks (evict_keeps h.toSeated hfirst).1) hids.2 ?_ ?_ hmem ?_
      · exact (h.locate_evict hfirst).trans hfound
      · exact (h.lookup_evict_of_not_inside hfirst (not_inside_self vault)).trans hdirectory
      · exact (h.lookup_evict_of_not_prefix hfirst hother).trans htree

/-- No directory is left of a point that is evicted. -/
theorem Housed.gone_of_evict (h : s.Housed vault d) (hids : ∀ point ∈ points, IsName point.id)
    (hfound : d.locate true s.directory = .ok vault) (hdirectory : d.lookup vault = some .directory)
    (hpoint : point ∈ points) :
    (s.evict points d).lookup (vault ++ [point.id]) ≠ some .directory := by
  intro hleft
  by_cases htaken : s.Taken (vault ++ [point.id]) points d
  · rw [lookup_evict_of_taken htaken] at hleft
    cases hleft
  · have hthere := lookup_evict_of_not_taken htaken
    rw [h.lookup_evict_of_mem hids hfound hdirectory hpoint (hthere ▸ hleft) List.prefix_rfl]
      at hleft
    cases hleft

/-! ## Writing the log -/

/-- **Writing the log**, where the store is there, puts its text at its place and leaves no draft.
-/
theorem Housed.lookup_save (h : s.Housed vault d) (hfound : d.locate true s.directory = .ok vault)
    (hdirectory : d.lookup vault = some .directory) (hsave : s.save points d = .ok () d')
    (p : Place) :
    d'.lookup p = if p = vault ++ [logName] then some (.file (RestorePoint.logText points).toUTF8)
      else if vault ++ [logName ++ ".tmp"] <+: p then none else d.lookup p := by
  obtain ⟨e, hmake, hroom, hsave⟩ := room_of_save (reporting_eq_ok.mp hsave) h.aims isName_logName
    isName_draft fun last => h.plain [last] (List.cons_ne_nil _ _)
  rw [makeDirectories_of_directory hfound hdirectory] at hmake
  cases hmake
  obtain ⟨d₁, hsave', -, hlookup⟩ := save_of_room hroom (RestorePoint.logText points)
  rw [hsave] at hsave'
  cases hsave'
  exact hlookup p

/-- **Evicting some points and logging others**, place by place. -/
theorem Housed.lookup_log (h : s.Housed vault d)
    (hids : ∀ point ∈ gone, IsName point.id) (hfound : d.locate true s.directory = .ok vault)
    (hdirectory : d.lookup vault = some .directory)
    (hsave : s.save points (s.evict gone d) = .ok () d') (p : Place) :
    d'.lookup p = if p = vault ++ [logName] then some (.file (RestorePoint.logText points).toUTF8)
      else if vault ++ [logName ++ ".tmp"] <+: p then none else (s.evict gone d).lookup p :=
  (h.sameLinks (evict_keeps h.toSeated hids).1).lookup_save ((h.locate_evict hids).trans hfound)
    ((h.lookup_evict_of_not_inside hids (not_inside_self vault)).trans hdirectory) hsave p

/-- Evicting and logging change what lies in the store only. -/
theorem Housed.lookup_log_of_not_inside (h : s.Housed vault d)
    (hids : ∀ point ∈ gone, IsName point.id)
    (hfound : d.locate true s.directory = .ok vault) (hdirectory : d.lookup vault = some .directory)
    (hsave : s.save points (s.evict gone d) = .ok () d') (hp : ¬Inside vault p) :
    d'.lookup p = d.lookup p := by
  rw [h.lookup_log hids hfound hdirectory hsave, if_neg, if_neg,
    h.lookup_evict_of_not_inside hids hp]
  · exact fun hdraft => hp (inside_of_isPrefix hdraft)
  · rintro rfl
    exact hp (inside_concat vault logName [])

/-- They leave the trees of the points that stay. -/
theorem Housed.lookup_log_of_prefix (h : s.Housed vault d) (hids : ∀ point ∈ gone, IsName point.id)
    (hfound : d.locate true s.directory = .ok vault) (hdirectory : d.lookup vault = some .directory)
    (hsave : s.save points (s.evict gone d) = .ok () d')
    (hlog : id ≠ logName ∧ id ≠ logName ++ ".tmp")
    (hstays : ∀ point ∈ gone, point.id ≠ id) (hp : vault ++ [id] <+: p) :
    d'.lookup p = d.lookup p := by
  rw [h.lookup_log hids hfound hdirectory hsave, if_neg, if_neg, h.lookup_evict_of_not_prefix hids]
  · exact fun point hpoint hgone => hstays point hpoint (eq_of_isPrefix hgone hp)
  · exact fun hdraft => hlog.2 (eq_of_isPrefix hp hdraft)
  · rintro rfl
    exact hlog.1 (eq_of_prefix_concat hp)

/-- A directory that is left was there, and is of no point that went. -/
theorem Housed.of_lookup_log (h : s.Housed vault d) (hids : ∀ point ∈ gone, IsName point.id)
    (hfound : d.locate true s.directory = .ok vault) (hdirectory : d.lookup vault = some .directory)
    (hsave : s.save points (s.evict gone d) = .ok () d')
    (hleft : d'.lookup (vault ++ [id]) = some .directory) :
    d.lookup (vault ++ [id]) = some .directory ∧ ∀ point ∈ gone, point.id ≠ id := by
  rw [h.lookup_log hids hfound hdirectory hsave] at hleft
  have hthere : (s.evict gone d).lookup (vault ++ [id]) = some .directory := by
    split_ifs at hleft
    · cases hleft
    · exact hleft
  refine ⟨?_, ?_⟩
  · by_cases htaken : s.Taken (vault ++ [id]) gone d
    · rw [lookup_evict_of_taken htaken] at hthere
      cases hthere
    · rwa [lookup_evict_of_not_taken htaken] at hthere
  · rintro point hpoint rfl
    exact h.gone_of_evict hids hfound hdirectory hpoint hthere

/-- Writing the log that fails leaves a draft at most. -/
theorem Housed.after_save_error {e : RestoreError} (h : s.Housed vault d)
    (hfound : d.locate true s.directory = .ok vault) (hdirectory : d.lookup vault = some .directory)
    (hsave : s.save points d = .error e d') :
    d' = d ∨ Dead (d.lookup (vault ++ [logName ++ ".tmp"])) ∧
      ∃ bytes, d' = d.put (vault ++ [logName ++ ".tmp"]) (.file bytes) := by
  obtain ⟨cause, hsave, -⟩ := reporting_eq_error.mp hsave
  have hmake := makeDirectories_of_directory hfound hdirectory
  rw [Disk.save] at hsave
  rcases bind_eq_error.mp hsave with hfail | ⟨_, made, hmade, hrest⟩
  · obtain ⟨cause, hfail, -⟩ := reporting_eq_error.mp hfail
    rw [hmake] at hfail
    cases hfail
  · rw [reporting_eq_ok, hmake] at hmade
    cases hmade
    rcases bind_eq_error.mp hrest with hfail | ⟨_, drafted, hwrite, hfail⟩
    · obtain ⟨cause, hfail, -⟩ := reporting_eq_error.mp hfail
      exact .inl (write_error_inv hfail)
    · obtain ⟨cause, hfail, -⟩ := reporting_eq_error.mp hfail
      rw [rename_error_inv hfail]
      obtain ⟨place, hwritable, rfl⟩ := write_inv (reporting_eq_ok.mp hwrite)
      obtain ⟨home, hhome, -, hplace⟩ := locate_join_inv (locate_of_writable hwritable) isName_draft
      obtain rfl := h.aims d (.refl d) home hhome
      obtain rfl := hplace (.inr (h.plain _ (List.cons_ne_nil _ _)))
      exact .inr ⟨(dead_of_writable hwritable).2, _, rfl⟩

end

end RestoreStore

end CodeAtlas
