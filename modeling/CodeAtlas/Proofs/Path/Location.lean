import CodeAtlas.Proofs.Path.Names

/-!
# Where a path lies, by its text

Setup: the components of an absolute path are followed without looking at a disk: `.` and empty ones
stay, `..` goes up (`Path.location`). A directory is excluded under a root only when the text of its
path goes on from the text of the root and has no `..` behind it (`Path.Root.Continues`), while many
other texts lie at the same location: **`Path.Root.excluded_excluding`** says which of them are
excluded, and as what.
-/

namespace CodeAtlas.Path

open CodeAtlas.Text

/-- One component further; `..` leads up. -/
def enterComponent (here : List String) (component : String) : List String :=
  if component = ".." then here.dropLast else here ++ [component]

/-- Where an absolute path lies when `.` and `..` are taken out of its text. Backslashes count as
slashes. -/
def location (path : String) : List String :=
  (components (slashed path)).foldl enterComponent []

variable {r : Root} {path : String} {names : List String} {cs rest : List Char}

/-! ## Components -/

/-- A slash parts the components in front of it from those behind it. -/
theorem components_append_cons (cs rest : List Char) :
    components (String.ofList (cs ++ '/' :: rest)) =
    components (String.ofList cs) ++ components (String.ofList rest) := by
  rw [components, splitOn_append_cons, List.filter_append, components, components]

/-- A slash in front is no component. -/
theorem components_cons_slash (rest : List Char) :
    components (String.ofList ('/' :: rest)) = components (String.ofList rest) :=
  components_append_cons [] rest

/-- Slashes in front are no components. -/
theorem components_replicate_append (n : Nat) (cs : List Char) :
    components (String.ofList (List.replicate n '/' ++ cs)) = components (String.ofList cs) := by
  induction n with
  | zero => simp
  | succ n ih => rw [List.replicate_succ, List.cons_append, components_cons_slash, ih]

/-- Slashes at the end are no components. -/
theorem components_dropEndSlashes (cs : List Char) :
    components (String.ofList (dropEndSlashes cs)) = components (String.ofList cs) := by
  obtain ⟨n, hn⟩ := eq_dropEndSlashes_append cs
  conv_rhs => rw [hn]
  cases n with
  | zero => simp
  | succ n =>
    have hslashes := components_replicate_append n []
    rw [List.append_nil] at hslashes
    rw [List.replicate_succ, components_append_cons, hslashes]
    exact (List.append_nil _).symm

/-- A component that does not lead up is a name. -/
theorem isName_of_mem_components {component : String} (h : component ∈ components path)
    (hup : component ≠ "..") : IsName component := by
  rw [components, List.mem_filter, isNaming, Bool.and_eq_true, decide_eq_true_eq, decide_eq_true_eq]
    at h
  obtain ⟨piece, hpiece, rfl⟩ := List.mem_map.mp h.1
  exact ⟨h.2.1, h.2.2, hup, by simpa using notMem_of_mem_piecesAt hpiece⟩

/-- Components of which none leads up are entered one after the other. -/
theorem foldl_enterComponent {here : List String} (h : ".." ∉ names) :
    names.foldl enterComponent here = here ++ names := by
  induction names generalizing here with
  | nil => simp
  | cons name names ih =>
    rw [List.mem_cons, not_or] at h
    obtain ⟨hname, hnames⟩ := h
    rw [List.foldl_cons, ih hnames, enterComponent, if_neg (Ne.symm hname), List.append_assoc]
    rfl

/-! ## Joined paths -/

/-- A path taken under an absolute one is absolute. -/
theorem isAbsolute_join {directory : String} (hdirectory : isAbsolute directory = true)
    (p : String) :
    isAbsolute (join directory p) = true := by
  by_cases hp : isAbsolute p = true
  · rwa [join, if_pos hp]
  · rw [isAbsolute, decide_eq_true_eq] at hdirectory ⊢
    rw [toList_join (by simpa using hp), List.head?_append, hdirectory]
    rfl

/-- The slashed text of an absolute directory and the slash behind it: there is a slash at the end.
-/
theorem toList_slashed_append_gap {directory : String} (hdirectory : isAbsolute directory = true) :
    ∃ n, (slashed directory).toList ++ gap directory =
      dropEndSlashes (slashed directory).toList ++ List.replicate (n + 1) '/' := by
  obtain ⟨n, hn⟩ := eq_dropEndSlashes_append (slashed directory).toList
  by_cases hend : directory.toList.getLast?.all (· = '/') = true
  · have hlast : (slashed directory).toList.getLast? = some '/' := by
      cases hlast : directory.toList.getLast? with
      | none =>
        rw [isAbsolute, List.getLast?_eq_none_iff.mp hlast] at hdirectory
        cases hdirectory
      | some c =>
        obtain rfl : c = '/' := by simpa [hlast] using hend
        rw [slashed, String.toList_map, List.getLast?_map, hlast]
        rfl
    cases n with
    | zero =>
      rw [List.replicate_zero, List.append_nil] at hn
      exact absurd (hn ▸ hlast) (getLast?_dropEndSlashes _)
    | succ n => exact ⟨n, by rw [gap, if_pos hend, List.append_nil]; exact hn⟩
  · refine ⟨n, ?_⟩
    rw [gap, if_neg hend, List.replicate_succ', ← List.append_assoc, ← hn]

/-- The slashed text of a joined path: that of the directory, and of what is joined. -/
theorem toList_slashed_join {directory p : String} (h : isAbsolute p = false) :
    (slashed (join directory p)).toList =
      (slashed directory).toList ++ (gap directory ++ (slashed p).toList) := by
  have hslash : (gap directory).map (fun c => if c = '\\' then '/' else c) = gap directory := by
    rw [gap]
    split_ifs <;> rfl
  rw [slashed, String.toList_map, toList_join h, List.map_append, List.map_append, hslash, slashed,
    slashed, String.toList_map, String.toList_map]

/-! ## Texts that go on from a root -/

namespace Root

/-- The text of the path goes on behind the root's text and a slash, without `..` from there on. -/
def Continues (r : Root) (path : String) : Prop :=
  ∃ rest, (slashed path).toList = r.spelling.toList ++ '/' :: rest ∧
    ".." ∉ components (String.ofList rest)

/-- The location of such a path is that of the root and the components behind it. -/
theorem location_of_continues (h : (slashed path).toList = r.spelling.toList ++ '/' :: rest)
    (hup : ".." ∉ components (String.ofList rest)) :
    location path = location r.directory ++ components (String.ofList rest) := by
  have hcomponents := components_append_cons r.spelling.toList rest
  rw [← h, String.ofList_toList, String.ofList_toList, spelling, components_dropEndSlashes,
    String.ofList_toList] at hcomponents
  rw [location, hcomponents, List.foldl_append, foldl_enterComponent hup, location]

/-- **What excluding a directory does**, by its text: below the root it is excluded under its name
if its text goes on from the root's, and otherwise not at all. -/
theorem excluded_excluding (habsolute : isAbsolute path = true) (hexcluded : r.excluded = [])
    (hne : names ≠ []) (hlocation : location path = location r.directory ++ names) :
    (r.Continues path → (∀ name ∈ names, IsName name) ∧
      r.excluding path = { r with excluded := [ofComponents names] }) ∧
    (¬r.Continues path → r.excluding path = r) := by
  have hremainder : r.remainder? path = below? r.spelling.toList (slashed path).toList := by
    rw [remainder?, if_pos habsolute]
  constructor
  · rintro ⟨rest, hrest, hup⟩
    have hnames := location_of_continues hrest hup
    rw [hlocation, List.append_cancel_left_eq] at hnames
    subst hnames
    have hproper : ∀ name ∈ components (String.ofList rest), IsName name :=
      fun name hname => isName_of_mem_components hname fun h => hup (h ▸ hname)
    refine ⟨hproper, ?_⟩
    have hrelative : r.relative path = .ok (ofComponents (components (String.ofList rest))) := by
      rw [relative, hremainder, hrest, below?, dropLead?_append]
      simp only [Option.filter, continuesBelow, List.head?_cons, Option.all_some, decide_true,
        if_true, Option.map_some, components_cons_slash, if_neg hup, nameOf,
        List.isEmpty_eq_false_iff.mpr hne, Bool.false_eq_true, if_false]
    have hdot : ofComponents (components (String.ofList rest)) ≠ "." :=
      fun hdot => not_lies_dot hne hproper (.inl hdot.symm)
    simp [excluding, hrelative, hdot, hexcluded]
  · intro hnot
    rw [excluding]
    cases hrelative : r.relative path with
    | error e => rfl
    | ok name =>
      simp only [relative, hremainder] at hrelative
      split at hrelative
      · next parts hparts =>
        obtain ⟨rest, hbelow, rfl⟩ := Option.map_eq_some_iff.mp hparts
        rw [below?, Option.filter_eq_some_iff, dropLead?_eq_some_iff] at hbelow
        obtain ⟨hrest, hcontinues⟩ := hbelow
        split_ifs at hrelative with hup
        cases hrelative
        cases rest with
        | nil => simp [show components (String.ofList []) = [] from rfl, nameOf]
        | cons c rest =>
          obtain rfl : c = '/' := by simpa [continuesBelow] using hcontinues
          rw [components_cons_slash] at hup
          exact absurd ⟨rest, hrest, hup⟩ hnot
      · cases hrelative

end Root

end CodeAtlas.Path
