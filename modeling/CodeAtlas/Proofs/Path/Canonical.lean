import CodeAtlas.Proofs.Path.Location

/-!
# The one name of a place

Setup: what is left of a path below the root is found by looking at its text (`Root.remainder?`): at
the text of the root in front of it, or at the `./` in front of a relative one (`Root.Remainder`).
Only then are the components looked at. A name is therefore right only if both agree, which is what
the lemmas about joined paths (`components_join`) and about what is left of them
(`Root.relative_join`) are for.

* **`Root.relative_canonical`** — which paths have a name, that the name is the canonical one of its
  place, and that the path of the name leads to the same place.
-/

namespace CodeAtlas.Path

open CodeAtlas.Text

variable {r : Root} {path name : String} {names : List String} {cs rest : List Char}

/-! ## Components of names and of joined paths -/

/-- Names are the components of themselves put together. -/
theorem components_nameOf (hnames : ∀ n ∈ names, IsName n) :
    components (Root.nameOf names) = names := by
  rw [Root.nameOf]
  cases names with
  | nil => decide
  | cons first more =>
    rw [if_neg (by simp), components, splitOn_ofComponents (List.cons_ne_nil _ _) hnames,
      List.filter_eq_self]
    intro n hn
    simp [isNaming, (hnames n hn).ne_empty, (hnames n hn).ne_dot]

/-- A name is a relative path. -/
theorem isAbsolute_nameOf (hnames : ∀ n ∈ names, IsName n) :
    isAbsolute (Root.nameOf names) = false := by
  rw [Root.nameOf]
  split
  · decide
  · exact isAbsolute_ofComponents hnames

/-- **The components of a joined path** are those of the directory and those of what is joined. -/
theorem components_join (directory : String) {p : String} (h : isAbsolute p = false) :
    components (join directory p) = components directory ++ components p := by
  rcases splitOn_join_of_relative directory h with hjoin | ⟨parts, hdirectory, hjoin⟩
  · simp only [components, hjoin, List.filter_append]
  · have hidle : [""].filter isNaming = [] := by decide
    simp only [components, hjoin, hdirectory, List.filter_append, hidle, List.append_nil]

/-- Going up is a component that counts. -/
theorem mem_components_dots : ".." ∈ components path ↔ ".." ∈ splitOn '/' path := by
  rw [components, List.mem_filter, and_iff_left (by decide)]

/-- What is in a piece is in the text. -/
theorem mem_of_mem_piecesAt {sep c : Char} {piece : List Char} (h : piece ∈ piecesAt sep cs)
    (hc : c ∈ piece) : c ∈ cs := by
  induction cs generalizing piece with
  | nil =>
    rw [List.mem_singleton.mp h] at hc
    exact hc
  | cons x xs ih =>
    by_cases hx : x = sep
    · rw [hx, piecesAt_cons_self] at h
      rcases List.mem_cons.mp h with rfl | h
      · exact absurd hc List.not_mem_nil
      · exact List.mem_cons_of_mem _ (ih h hc)
    · obtain ⟨first, more, hxs, hcons⟩ := piecesAt_cons_of_ne hx xs
      rw [hcons] at h
      rw [hxs] at ih
      rcases List.mem_cons.mp h with rfl | h
      · rcases List.mem_cons.mp hc with rfl | hc
        · exact List.mem_cons_self
        · exact List.mem_cons_of_mem _ (ih List.mem_cons_self hc)
      · exact List.mem_cons_of_mem _ (ih (List.mem_cons_of_mem _ h) hc)

/-- A character of a component is one of the path. -/
theorem mem_of_mem_components {c : Char} (hname : name ∈ components path) (hc : c ∈ name.toList) :
    c ∈ path.toList := by
  obtain ⟨piece, hpiece, rfl⟩ := List.mem_map.mp (List.mem_filter.mp hname).1
  rw [String.toList_ofList] at hc
  exact mem_of_mem_piecesAt hpiece hc

/-- Names without backslashes have none when they are put together. -/
theorem backslash_notMem_nameOf (hbackslash : ∀ n ∈ names, '\\' ∉ n.toList) :
    '\\' ∉ (Root.nameOf names).toList := by
  rw [Root.nameOf]
  split
  · decide
  · rw [toList_ofComponents]
    intro h
    rcases mem_intercalate h with h | ⟨piece, hpiece, h⟩
    · cases h
    · obtain ⟨n, hn, rfl⟩ := List.mem_map.mp hpiece
      exact hbackslash n hn h

/-- A text that ends in no slash is what is left without the slashes behind it. -/
theorem dropEndSlashes_append (hlast : cs.getLast? ≠ some '/') (n : Nat) :
    dropEndSlashes (cs ++ List.replicate n '/') = cs := by
  have hslashes : ∀ c ∈ List.replicate n '/', decide (c = '/') = true :=
    fun c hc => by simp [List.eq_of_mem_replicate hc]
  rw [dropEndSlashes, List.reverse_append, List.reverse_replicate,
    List.dropWhile_append_of_pos hslashes]
  rw [← List.head?_reverse] at hlast
  rw [← List.reverse_reverse cs]
  generalize cs.reverse = back at hlast ⊢
  cases back with
  | nil => rfl
  | cons c back => rw [List.reverse_reverse, List.dropWhile_cons_of_neg (by simpa using hlast)]

/-- What goes on below a directory is nothing at all, or starts with a slash. -/
theorem continuesBelow_iff : continuesBelow rest = true ↔ rest = [] ∨ rest.head? = some '/' := by
  cases rest <;> simp [continuesBelow]

/-- What starts with a slash, or with nothing at all, adds its components. -/
theorem components_append (hrest : rest = [] ∨ rest.head? = some '/') :
    components (String.ofList (cs ++ rest)) =
      components (String.ofList cs) ++ components (String.ofList rest) := by
  rcases hrest with rfl | hrest
  · rw [List.append_nil]
    exact (List.append_nil _).symm
  · obtain ⟨rest, rfl⟩ := List.head?_eq_some_iff.mp hrest
    rw [components_append_cons, components_cons_slash]

/-! ## What is in front of a relative path -/

/-- What is dropped in front of a relative path are runs of `./`, all of them. -/
theorem dropDotSlashes_spec (cs : List Char) :
    ¬['.', '/'] <+: dropDotSlashes cs ∧
      ∃ n, cs = (List.replicate n ['.', '/']).flatten ++ dropDotSlashes cs := by
  fun_induction dropDotSlashes cs with
  | case1 cs ih =>
    obtain ⟨hkept, n, hn⟩ := ih
    refine ⟨hkept, n + 1, ?_⟩
    rw [List.replicate_succ, List.flatten_cons, List.append_assoc, ← hn]
    rfl
  | case2 cs h =>
    refine ⟨?_, 0, rfl⟩
    rintro ⟨rest, rfl⟩
    exact h rest rfl

/-- Runs of `./` are dropped. -/
theorem dropDotSlashes_append (n : Nat) (h : ¬['.', '/'] <+: rest) :
    dropDotSlashes ((List.replicate n ['.', '/']).flatten ++ rest) = rest := by
  induction n with
  | zero =>
    unfold dropDotSlashes
    split
    · next hcs => exact absurd ⟨_, hcs.symm⟩ h
    · rfl
  | succ n ih => rwa [List.replicate_succ, List.flatten_cons, List.append_assoc]

/-- Joined names have these names as pieces. -/
theorem piecesAt_ofComponents (hne : names ≠ []) (hnames : ∀ n ∈ names, IsName n) :
    piecesAt '/' (ofComponents names).toList = names.map String.toList := by
  rw [toList_ofComponents, piecesAt_intercalate (by simpa using hne)]
  intro piece hpiece
  obtain ⟨n, hn, rfl⟩ := List.mem_map.mp hpiece
  exact (hnames n hn).slash

/-- No `./` stands in front of joined names. -/
theorem dropDotSlashes_ofComponents (hne : names ≠ []) (hnames : ∀ n ∈ names, IsName n) :
    dropDotSlashes (ofComponents names).toList = (ofComponents names).toList := by
  refine dropDotSlashes_eq ?_
  rw [piecesAt_ofComponents hne hnames]
  intro h
  obtain ⟨first, hfirst, hdot⟩ := List.mem_map.mp (List.mem_of_mem_head? h)
  exact (hnames first hfirst).ne_dot (String.toList_inj.mp hdot)

/-- Runs of `./` name nothing. -/
theorem components_dropDotSlashes (cs : List Char) :
    components (String.ofList (dropDotSlashes cs)) = components (String.ofList cs) := by
  fun_induction dropDotSlashes cs with
  | case1 cs ih =>
    have hdot : components (String.ofList ['.']) = [] := by decide
    rw [ih, show '.' :: '/' :: cs = ['.'] ++ '/' :: cs from rfl, components_append_cons, hdot]
    rfl
  | case2 => rfl

namespace Root

/-! ## What is left below the root -/

/-- What is left of a path below the root, by its text: behind the text of the root without its last
slashes, where a component ends, or behind the `./` in front of a relative path. -/
inductive Remainder (r : Root) (path : String) : List Char → Prop
  | absolute {text rest : List Char} {n : Nat} (habsolute : isAbsolute path = true)
      (hroot : r.directory.toList = text ++ List.replicate n '/') (hlast : text.getLast? ≠ some '/')
      (hpath : path.toList = text ++ rest) (hrest : rest = [] ∨ rest.head? = some '/') :
      Remainder r path rest
  | relative {rest : List Char} {n : Nat} (hrelative : isAbsolute path = false)
      (hpath : path.toList = (List.replicate n ['.', '/']).flatten ++ rest)
      (hdots : ¬['.', '/'] <+: rest) (hrest : rest.head? ≠ some '/') :
      Remainder r path rest

/-- What is left is what the text says. -/
theorem remainder?_eq_some_iff (hroot : '\\' ∉ r.directory.toList) (hpath : '\\' ∉ path.toList) :
    r.remainder? path = some rest ↔ r.Remainder path rest := by
  rw [remainder?, spelling, slashed_eq hpath, slashed_eq hroot, String.toList_ofList]
  cases habsolute : isAbsolute path with
  | true =>
    rw [if_pos rfl, below?, Option.filter_eq_some_iff, dropLead?_eq_some_iff]
    obtain ⟨n, hn⟩ := eq_dropEndSlashes_append r.directory.toList
    constructor
    · rintro ⟨htext, hrest⟩
      exact .absolute habsolute hn (getLast?_dropEndSlashes _) htext (continuesBelow_iff.mp hrest)
    · rintro (⟨-, htext, hlast, hpath, hrest⟩ | ⟨hrelative, -⟩)
      · rw [htext, dropEndSlashes_append hlast _]
        exact ⟨hpath, continuesBelow_iff.mpr hrest⟩
      · rw [habsolute] at hrelative
        cases hrelative
  | false =>
    rw [if_neg (by simp)]
    obtain ⟨hdots, n, hn⟩ := dropDotSlashes_spec path.toList
    constructor
    · intro h
      dsimp only at h
      split_ifs at h with hslash
      cases h
      exact .relative habsolute hn hdots hslash
    · rintro (⟨hrelative, -⟩ | ⟨-, hpath, hdots, hslash⟩)
      · rw [habsolute] at hrelative
        cases hrelative
      · rw [hpath, dropDotSlashes_append _ hdots]
        exact if_neg hslash

/-- A path has a name if something is left of it without `..`; it is that of the components. -/
theorem relative_eq_ok_iff : r.relative path = .ok name ↔
    ∃ rest, r.remainder? path = some rest ∧ ".." ∉ components (String.ofList rest) ∧
      name = nameOf (components (String.ofList rest)) := by
  rw [relative]
  cases hrest : r.remainder? path with
  | none => simp
  | some rest =>
    simp only [Option.map_some, Option.some.injEq, exists_eq_left']
    split_ifs with hup
    · simp [hup]
    · simp [hup, eq_comm]

/-- What is left is part of the path. -/
theorem Remainder.subset (h : r.Remainder path rest) : rest ⊆ path.toList := by
  rcases h with ⟨-, -, -, hpath, -⟩ | ⟨-, hpath, -, -⟩ <;> rw [hpath] <;>
    exact List.subset_append_right _ _

/-- **What is left has the components** that the path has behind the root. -/
theorem components_of_remainder (h : r.Remainder path rest) :
    components (join r.directory path) = components r.directory ++
      components (String.ofList rest) := by
  cases h with
  | @absolute text _ n habsolute hroot hlast hpath hrest =>
    have hdirectory := components_dropEndSlashes r.directory.toList
    rw [String.ofList_toList, hroot, dropEndSlashes_append hlast n] at hdirectory
    have hcomponents := @components_append text rest hrest
    rw [← hpath, String.ofList_toList, hdirectory] at hcomponents
    rwa [join, if_pos habsolute]
  | relative hrelative hpath hdots =>
    rw [components_join _ hrelative, ← dropDotSlashes_append _ hdots, ← hpath,
      components_dropDotSlashes, String.ofList_toList]

/-- Nothing stands in front of a name. -/
theorem remainder?_nameOf (hnames : ∀ n ∈ names, IsName n)
    (hbackslash : ∀ n ∈ names, '\\' ∉ n.toList) :
    r.remainder? (nameOf names) = some (nameOf names).toList := by
  have hdots : dropDotSlashes (nameOf names).toList = (nameOf names).toList := by
    rw [nameOf]
    split_ifs with hempty
    · rfl
    · exact dropDotSlashes_ofComponents (by simpa using hempty) hnames
  have hrelative := isAbsolute_nameOf hnames
  rw [remainder?, slashed_eq (backslash_notMem_nameOf hbackslash), hdots,
    if_neg (by simp [hrelative])]
  rw [isAbsolute, decide_eq_false_iff_not] at hrelative
  exact if_neg hrelative

/-- What is left of a joined path are the slashes between, and what was joined. -/
theorem remainder?_join (habsolute : isAbsolute r.directory = true)
    (hrelative : isAbsolute path = false) :
    ∃ n, r.remainder? (join r.directory path) =
      some (List.replicate (n + 1) '/' ++ (slashed path).toList) := by
  obtain ⟨n, hgap⟩ := toList_slashed_append_gap habsolute
  refine ⟨n, ?_⟩
  rw [remainder?, if_pos (isAbsolute_join habsolute path), toList_slashed_join hrelative,
    ← List.append_assoc,
    hgap, List.append_assoc, spelling, String.toList_ofList, below?, dropLead?_append]
  rfl

/-- **The name of a joined path** is that of the components of what was joined, if none leads up. -/
theorem relative_join (habsolute : isAbsolute r.directory = true)
    (hrelative : isAbsolute path = false) :
    r.relative (join r.directory path) =
      if ".." ∈ components (slashed path) then .error
          (.outside (slashed (join r.directory path)) r.spelling)
      else .ok (nameOf (components (slashed path))) := by
  obtain ⟨n, hn⟩ := remainder?_join habsolute hrelative
  rw [relative, hn]
  simp only [Option.map_some, components_replicate_append, String.ofList_toList]

/-- **The one name of a place.** -/
theorem relative_canonical (r : Root) (path : String) (habsolute : isAbsolute r.directory = true)
    (hroot : '\\' ∉ r.directory.toList) (hpath : '\\' ∉ path.toList) :
    (∀ name, r.relative path = .ok name →
      (name = "." ∨ ∃ names, names ≠ [] ∧ (∀ n ∈ names, IsName n) ∧ name = ofComponents names) ∧
      r.relative name = .ok name ∧ r.relative (r.absolute name) = .ok name ∧
      components (r.absolute name) = components (join r.directory path)) ∧
    ((∃ name, r.relative path = .ok name) ↔
      ∃ rest, r.Remainder path rest ∧ ".." ∉ splitOn '/' (String.ofList rest)) := by
  constructor
  · intro name h
    obtain ⟨rest, hrest, hdots, rfl⟩ := relative_eq_ok_iff.mp h
    rw [remainder?_eq_some_iff hroot hpath] at hrest
    have hjoin := components_of_remainder hrest
    have hnames : ∀ n ∈ components (String.ofList rest), IsName n :=
      fun n hn => isName_of_mem_components hn fun h => hdots (h ▸ hn)
    have hbackslash : ∀ n ∈ components (String.ofList rest), '\\' ∉ n.toList := by
      intro n hn hc
      have hmem := mem_of_mem_components hn hc
      rw [String.toList_ofList] at hmem
      exact hpath (hrest.subset hmem)
    generalize components (String.ofList rest) = names at hdots hjoin hnames hbackslash ⊢
    have hcomponents := components_nameOf hnames
    have hplain := backslash_notMem_nameOf hbackslash
    refine ⟨?_, ?_, ?_, ?_⟩
    · rw [nameOf]
      split_ifs with hempty
      · exact .inl rfl
      · exact .inr ⟨names, by simpa using hempty, hnames, rfl⟩
    · refine relative_eq_ok_iff.mpr ⟨_, remainder?_nameOf hnames hbackslash, ?_, ?_⟩
      · rwa [String.ofList_toList, hcomponents]
      · rw [String.ofList_toList, hcomponents]
    · rw [absolute, relative_join habsolute (isAbsolute_nameOf hnames), slashed_eq hplain,
        hcomponents, if_neg hdots]
    · rw [absolute, components_join _ (isAbsolute_nameOf hnames), hcomponents, hjoin]
  · constructor
    · rintro ⟨name, h⟩
      obtain ⟨rest, hrest, hdots, -⟩ := relative_eq_ok_iff.mp h
      exact ⟨rest, (remainder?_eq_some_iff hroot hpath).mp hrest, mem_components_dots.not.mp hdots⟩
    · rintro ⟨rest, hrest, hdots⟩
      exact ⟨_, relative_eq_ok_iff.mpr
        ⟨rest, (remainder?_eq_some_iff hroot hpath).mpr hrest, mem_components_dots.not.mpr hdots,
          rfl⟩⟩

/-- A file of a repository, by a path with idle components. -/
theorem relative_canonical_main :
    let r : Root := ⟨"/srv/repo/", [], []⟩
    let path := "/srv/repo//src/./main.rs"
    isAbsolute r.directory = true ∧ '\\' ∉ r.directory.toList ∧ '\\' ∉ path.toList ∧
      r.relative path = .ok "src/main.rs" ∧ r.relative "src/main.rs" = .ok "src/main.rs" ∧
      r.relative (r.absolute "src/main.rs") = .ok "src/main.rs" ∧
      components (r.absolute "src/main.rs") = components (join r.directory path) ∧
        ∃ rest, r.Remainder path rest := by
  intro r path
  have habsolute : isAbsolute r.directory = true := by decide
  have hroot : '\\' ∉ r.directory.toList := by decide
  have hpath : '\\' ∉ path.toList := by decide
  have hrest : r.Remainder path "//src/./main.rs".toList :=
    @Remainder.absolute r path "/srv/repo".toList _ 1 (by decide) (by decide) (by decide)
      (by decide) (by decide)
  have hname : r.relative path = .ok "src/main.rs" :=
    relative_eq_ok_iff.mpr ⟨_, (remainder?_eq_some_iff hroot hpath).mpr hrest, by decide, by decide⟩
  obtain ⟨hcanonical, hsome⟩ := relative_canonical r path habsolute hroot hpath
  obtain ⟨-, hself, hback, hplace⟩ := hcanonical _ hname
  obtain ⟨rest, hleft, -⟩ := hsome.mp ⟨_, hname⟩
  exact ⟨habsolute, hroot, hpath, hname, hself, hback, hplace, rest, hleft⟩

-- a directory whose name only starts like the root's
example : below? "/srv/repo".toList "/srv/repo-old/main.rs".toList = none := by decide

end Root

end CodeAtlas.Path
