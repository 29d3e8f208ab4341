import CodeAtlas.Walk
import Mathlib.Data.List.TakeWhile
import Mathlib.Tactic

/-!
# Names joined to paths

Setup: a directory entry has a name that is one component of a path (`IsName`). Names joined one
after the other behind a directory are the same path as the joined names behind it
(**`pathBelow_eq`**), and the components of a joined path are those of the directory and the names
(`splitOn_join`).
-/

namespace CodeAtlas.Text

/-! ## Pieces -/

variable {α : Type} [DecidableEq α] {sep : α}

/-- There is always a piece. -/
theorem piecesAt_ne_nil (xs : List α) : piecesAt sep xs ≠ [] := by
  induction xs with
  | nil => exact List.cons_ne_nil _ _
  | cons x xs ih =>
    rw [piecesAt, List.foldr_cons, ← piecesAt]
    split
    · exact List.cons_ne_nil _ _
    · split <;> exact List.cons_ne_nil _ _

/-- The separator ends a piece. -/
theorem piecesAt_cons_self (xs : List α) : piecesAt sep (sep :: xs) = [] :: piecesAt sep xs := by
  rw [piecesAt, List.foldr_cons, if_pos rfl]
  rfl

/-- Anything else goes on with the first piece. -/
theorem piecesAt_cons_of_ne {x : α} (h : x ≠ sep) (xs : List α) :
    ∃ piece rest, piecesAt sep xs = piece :: rest ∧
      piecesAt sep (x :: xs) = (x :: piece) :: rest := by
  have hne : piecesAt sep xs ≠ [] := piecesAt_ne_nil xs
  obtain ⟨piece, rest, hpieces⟩ := List.exists_cons_of_ne_nil hne
  refine ⟨piece, rest, hpieces, ?_⟩
  rw [piecesAt, List.foldr_cons, if_neg h, ← piecesAt, hpieces]

/-- Without the separator there is one piece. -/
theorem piecesAt_of_notMem {xs : List α} (h : sep ∉ xs) : piecesAt sep xs = [xs] := by
  induction xs with
  | nil => rfl
  | cons x xs ih =>
    have hx : x ≠ sep := fun hx => h (List.mem_cons.mpr (.inl hx.symm))
    obtain ⟨piece, rest, hxs, hcons⟩ := piecesAt_cons_of_ne hx xs
    rw [ih fun hmem => h (List.mem_cons_of_mem _ hmem)] at hxs
    cases hxs
    exact hcons

/-- The separator is in no piece. -/
theorem notMem_of_mem_piecesAt {xs piece : List α} (h : piece ∈ piecesAt sep xs) : sep ∉ piece := by
  induction xs generalizing piece with
  | nil =>
    rw [List.mem_singleton.mp h]
    exact List.not_mem_nil
  | cons x xs ih =>
    by_cases hx : x = sep
    · rw [hx, piecesAt_cons_self] at h
      rcases List.mem_cons.mp h with rfl | h
      · exact List.not_mem_nil
      · exact ih h
    · obtain ⟨first, rest, hxs, hcons⟩ := piecesAt_cons_of_ne hx xs
      rw [hcons] at h
      rw [hxs] at ih
      rcases List.mem_cons.mp h with rfl | h
      · exact List.not_mem_cons_of_ne_of_not_mem (Ne.symm hx) (ih List.mem_cons_self)
      · exact ih (List.mem_cons_of_mem _ h)

/-- A separator in the middle splits the pieces into those on its left and those on its right. -/
theorem piecesAt_append_cons (xs ys : List α) :
    piecesAt sep (xs ++ sep :: ys) = piecesAt sep xs ++ piecesAt sep ys := by
  induction xs with
  | nil => rw [List.nil_append, piecesAt_cons_self]; rfl
  | cons x xs ih =>
    rw [List.cons_append]
    by_cases hx : x = sep
    · rw [hx, piecesAt_cons_self, piecesAt_cons_self, ih, List.cons_append]
    · obtain ⟨piece, rest, hxs, hcons⟩ := piecesAt_cons_of_ne hx xs
      obtain ⟨piece', rest', hall, hconsAll⟩ := piecesAt_cons_of_ne hx (xs ++ sep :: ys)
      rw [ih, hxs, List.cons_append] at hall
      cases hall
      rw [hconsAll, hcons, List.cons_append]

/-- Separators in front add empty pieces. -/
theorem piecesAt_replicate_append (n : Nat) (xs : List α) :
    piecesAt sep (List.replicate n sep ++ xs) = List.replicate n [] ++ piecesAt sep xs := by
  induction n with
  | zero => rfl
  | succ n ih =>
    rw [List.replicate_succ, List.cons_append, piecesAt_cons_self, ih]
    rfl

/-- **Joined pieces are the pieces**, if the separator is in none of them. -/
theorem piecesAt_intercalate {pieces : List (List α)} (hne : pieces ≠ [])
    (h : ∀ piece ∈ pieces, sep ∉ piece) : piecesAt sep ([sep].intercalate pieces) = pieces := by
  induction pieces with
  | nil => exact absurd rfl hne
  | cons piece pieces ih =>
    have hpiece := piecesAt_of_notMem (h piece List.mem_cons_self)
    cases pieces with
    | nil => rw [List.intercalate_singleton, hpiece]
    | cons second pieces =>
      rw [List.intercalate_cons_cons, List.append_assoc, List.singleton_append,
        piecesAt_append_cons,
        hpiece, ih (List.cons_ne_nil _ _) fun p hp => h p (List.mem_cons_of_mem _ hp)]
      rfl

end CodeAtlas.Text

namespace CodeAtlas.Path

open CodeAtlas.Text

/-- A name that an entry of a directory can have. -/
structure IsName (name : String) : Prop where
  /-- it is not empty -/
  ne_empty : name ≠ ""
  /-- it is not the directory itself -/
  ne_dot : name ≠ "."
  /-- it is not the directory above -/
  ne_dots : name ≠ ".."
  /-- it is one component -/
  slash : '/' ∉ name.toList

/-- A text is empty when it has no characters. -/
theorem toList_ne_nil {s : String} (h : s ≠ "") : s.toList ≠ [] := by
  rwa [Ne, String.toList_eq_nil_iff]

/-- A component is no absolute path. -/
theorem isAbsolute_of_slash {component : String} (h : '/' ∉ component.toList) :
    isAbsolute component = false := by
  rw [isAbsolute, decide_eq_false_iff_not]
  exact fun hhead => h (List.mem_of_mem_head? hhead)

namespace IsName

variable {name : String}

/-- A name has a first and a last character, and neither is a slash. -/
theorem getLast?_eq (h : IsName name) : ∃ c, name.toList.getLast? = some c ∧ c ≠ '/' := by
  refine ⟨_, List.getLast?_eq_some_getLast (toList_ne_nil h.ne_empty), fun hslash => h.slash ?_⟩
  exact hslash ▸ List.getLast_mem _

/-- A name is no absolute path. -/
theorem isAbsolute_eq (h : IsName name) : isAbsolute name = false :=
  isAbsolute_of_slash h.slash

end IsName

/-! ## Joining -/

/-- The characters between a directory and what is joined to it. -/
def gap (directory : String) : List Char :=
  if directory.toList.getLast?.all (· = '/') then [] else ['/']

/-- A relative path follows the directory and the slash between them. -/
theorem toList_join {directory p : String} (h : isAbsolute p = false) :
    (join directory p).toList = directory.toList ++ (gap directory ++ p.toList) := by
  rw [join, h, gap]
  simp only [Bool.false_eq_true, if_false]
  split <;> simp

/-- Behind a directory whose last character is no slash there is one. -/
theorem gap_of_getLast? {directory : String} {c : Char} (h : directory.toList.getLast? = some c)
    (hc : c ≠ '/') : gap directory = ['/'] := by
  simp [gap, h, hc]

/-- A joined path ends as its last name does. -/
theorem getLast?_join (directory : String) {p : String} (h : isAbsolute p = false) {c : Char}
    (hc : p.toList.getLast? = some c) : (join directory p).toList.getLast? = some c := by
  rw [toList_join h, ← List.append_assoc, List.getLast?_append, hc]
  rfl

/-- The components of a joined path: those of the directory, without the empty one at its end, and
those of the path that is joined. -/
theorem splitOn_join_of_relative (directory : String) {p : String} (h : isAbsolute p = false) :
    splitOn '/' (join directory p) = splitOn '/' directory ++ splitOn '/' p ∨
      ∃ parts, splitOn '/' directory = parts ++ [""] ∧
        splitOn '/' (join directory p) = parts ++ splitOn '/' p := by
  simp only [splitOn, splitOnChar, toList_join h]
  -- the slash between them is there already exactly when the directory is empty or ends in one
  cases hlast : directory.toList.getLast? with
  | none =>
    have hempty : directory.toList = [] := List.getLast?_eq_none_iff.mp hlast
    refine .inr ⟨[], by rw [hempty]; rfl, ?_⟩
    rw [gap, hlast, hempty]
    simp
  | some c =>
    by_cases hc : c = '/'
    · obtain ⟨front, hfront⟩ : ∃ front, directory.toList = front ++ ['/'] :=
        List.getLast?_eq_some_iff.mp (hc ▸ hlast)
      refine .inr ⟨(piecesAt '/' front).map String.ofList, ?_, ?_⟩
      · rw [hfront, piecesAt_append_cons, List.map_append]
        rfl
      · have hgap : gap directory = [] := by simp [gap, hlast, hc]
        rw [hgap, hfront, List.nil_append, List.append_assoc, List.singleton_append,
          piecesAt_append_cons, List.map_append]
    · refine .inl ?_
      rw [gap_of_getLast? hlast hc, List.singleton_append, piecesAt_append_cons, List.map_append]

/-- There is always a component. -/
theorem splitOn_ne_nil (name : String) : splitOn '/' name ≠ [] := by
  rw [splitOn, splitOnChar, Ne, List.map_eq_nil_iff]
  exact piecesAt_ne_nil _

/-- A slash in the middle splits the components into those on its left and those on its right. -/
theorem splitOn_append_cons (front back : List Char) :
    splitOn '/' (String.ofList (front ++ '/' :: back)) =
    splitOn '/' (String.ofList front) ++ splitOn '/' (String.ofList back) := by
  simp only [splitOn, splitOnChar, String.toList_ofList, piecesAt_append_cons, List.map_append]

/-- A text without slashes is one component. -/
theorem splitOn_of_slash {name : String} (h : '/' ∉ name.toList) : splitOn '/' name = [name] := by
  rw [splitOn, splitOnChar, piecesAt_of_notMem h]
  simp

/-- The components of a joined path: those of the directory, without the empty one at its end, and
the component that is joined. -/
theorem splitOn_join (directory : String) {name : String} (h : '/' ∉ name.toList) :
    splitOn '/' (join directory name) = splitOn '/' directory ++ [name] ∨
      ∃ parts, splitOn '/' directory = parts ++ [""] ∧
        splitOn '/' (join directory name) = parts ++ [name] := by
  have hjoin := splitOn_join_of_relative directory (isAbsolute_of_slash h)
  rwa [splitOn_of_slash h] at hjoin

/-! ## Names below a directory -/

/-- The characters of names joined by slashes. -/
theorem toList_ofComponents (names : List String) :
    (ofComponents names).toList = ['/'].intercalate (names.map String.toList) := by
  rw [ofComponents, String.toList_intercalate]
  rfl

/-- Joined names are no absolute path. -/
theorem isAbsolute_ofComponents {names : List String} (hnames : ∀ name ∈ names, IsName name) :
    isAbsolute (ofComponents names) = false := by
  rw [isAbsolute, decide_eq_false_iff_not, toList_ofComponents]
  cases names with
  | nil => simp
  | cons name names =>
    have hname := hnames name List.mem_cons_self
    obtain ⟨c, cs, hcs⟩ := List.exists_cons_of_ne_nil (toList_ne_nil hname.ne_empty)
    have hc : c ≠ '/' := by
      rintro rfl
      exact hname.slash (by rw [hcs]; exact List.mem_cons_self)
    cases names with
    | nil => simpa [hcs] using hc
    | cons second names =>
      rw [List.map_cons, List.map_cons, List.intercalate_cons_cons, hcs]
      simpa using hc

/-- The characters of the path of names below a directory. -/
theorem toList_pathBelow (directory : String) {names : List String} (hne : names ≠ [])
    (hnames : ∀ name ∈ names, IsName name) :
    (Disk.pathBelow directory names).toList =
      directory.toList ++ (gap directory ++ ['/'].intercalate (names.map String.toList)) := by
  induction names generalizing directory with
  | nil => exact absurd rfl hne
  | cons name names ih =>
    have hname := hnames name List.mem_cons_self
    cases names with
    | nil =>
      rw [List.map_singleton, List.intercalate_singleton, ← toList_join hname.isAbsolute_eq]
      rfl
    | cons second names =>
      obtain ⟨c, hlast, hc⟩ := hname.getLast?_eq
      have hgap := gap_of_getLast? (getLast?_join directory hname.isAbsolute_eq hlast) hc
      have hrest := ih (join directory name) (List.cons_ne_nil _ _)
        fun n hn => hnames n (List.mem_cons_of_mem _ hn)
      rw [hgap, toList_join hname.isAbsolute_eq] at hrest
      rw [Disk.pathBelow, List.foldl_cons, ← Disk.pathBelow, hrest]
      simp only [List.map_cons, List.intercalate_cons_cons, List.append_assoc]

/-- **Names joined one after the other** are the joined names behind the directory. -/
theorem pathBelow_eq (directory : String) {names : List String} (hne : names ≠ [])
    (hnames : ∀ name ∈ names, IsName name) :
    Disk.pathBelow directory names = join directory (ofComponents names) := by
  refine String.toList_inj.mp ?_
  rw [toList_pathBelow directory hne hnames, toList_join (isAbsolute_ofComponents hnames),
    toList_ofComponents]

/-- Joined pieces have these pieces as components, if no slash is in them. -/
theorem splitOn_intercalate {pieces : List String} (hne : pieces ≠ [])
    (hslash : ∀ piece ∈ pieces, '/' ∉ piece.toList) :
    splitOn '/' (ofComponents pieces) = pieces := by
  have hpieces : ∀ piece ∈ pieces.map String.toList, '/' ∉ piece := by
    intro piece hpiece
    obtain ⟨name, hname, rfl⟩ := List.mem_map.mp hpiece
    exact hslash name hname
  rw [splitOn, splitOnChar, toList_ofComponents,
    piecesAt_intercalate (by simpa using hne) hpieces, List.map_map]
  simp

/-- Joined names have these names as components. -/
theorem splitOn_ofComponents {names : List String} (hne : names ≠ [])
    (hnames : ∀ name ∈ names, IsName name) : splitOn '/' (ofComponents names) = names :=
  splitOn_intercalate hne fun name hname => (hnames name hname).slash

/-- A component has no slash. -/
theorem slash_notMem_of_mem_splitOn {path component : String} (h : component ∈ splitOn '/' path) :
    '/' ∉ component.toList := by
  obtain ⟨piece, hpiece, rfl⟩ := List.mem_map.mp h
  rw [String.toList_ofList]
  exact notMem_of_mem_piecesAt hpiece

/-- Different names are joined to different paths. -/
theorem ofComponents_inj {names names' : List String} (hne : names ≠ []) (hne' : names' ≠ [])
    (hnames : ∀ name ∈ names, IsName name) (hnames' : ∀ name ∈ names', IsName name)
    (h : ofComponents names = ofComponents names') : names = names' := by
  rw [← splitOn_ofComponents hne hnames, h, splitOn_ofComponents hne' hnames']

/-! ## Names under a root -/

/-- Characters without the slashes at the end, followed by these slashes. -/
theorem eq_dropEndSlashes_append (cs : List Char) :
    ∃ n, cs = dropEndSlashes cs ++ List.replicate n '/' := by
  refine ⟨(cs.reverse.takeWhile (· = '/')).length, ?_⟩
  have hslashes : cs.reverse.takeWhile (· = '/') =
      List.replicate (cs.reverse.takeWhile (· = '/')).length '/' :=
    List.eq_replicate_iff.mpr ⟨rfl, fun c hc => by simpa using List.mem_takeWhile_imp hc⟩
  conv_lhs => rw [← List.reverse_reverse cs,
    ← List.takeWhile_append_dropWhile (p := fun c => decide (c = '/')) (l := cs.reverse),
    List.reverse_append, hslashes, List.reverse_replicate]
  rfl

/-- What is left ends in no slash. -/
theorem getLast?_dropEndSlashes (cs : List Char) : (dropEndSlashes cs).getLast? ≠ some '/' := by
  intro h
  rw [dropEndSlashes, List.getLast?_reverse] at h
  have hhead := List.head?_dropWhile_not (fun c => decide (c = '/')) cs.reverse
  rw [h] at hhead
  simp at hhead

/-- What an absolute path has at its end: the slashes there, and the one that a join puts there. -/
theorem toList_append_gap {directory : String} (h : isAbsolute directory = true) :
    ∃ n, directory.toList ++ gap directory =
      dropEndSlashes directory.toList ++ List.replicate (n + 1) '/' := by
  obtain ⟨n, hn⟩ := eq_dropEndSlashes_append directory.toList
  have hkept := getLast?_dropEndSlashes directory.toList
  generalize dropEndSlashes directory.toList = kept at hn hkept ⊢
  cases n with
  | zero =>
    rw [List.replicate_zero, List.append_nil] at hn
    cases hlast : kept.getLast? with
    | none =>
      rw [isAbsolute, hn, List.getLast?_eq_none_iff.mp hlast] at h
      cases h
    | some c =>
      have hc : c ≠ '/' := fun hc => hkept (hc ▸ hlast)
      exact ⟨0, by rw [gap_of_getLast? (hn ▸ hlast) hc, hn]; rfl⟩
  | succ n =>
    have hlast : directory.toList.getLast? = some '/' := by
      rw [hn, List.replicate_succ', ← List.append_assoc, List.getLast?_concat]
    exact ⟨n, by rw [gap, hlast, ← hn]; simp⟩

/-- Nothing is slashed where there is no backslash. -/
theorem slashed_eq {p : String} (h : '\\' ∉ p.toList) : slashed p = p := by
  refine String.toList_inj.mp ?_
  rw [slashed, String.toList_map]
  conv_rhs => rw [← List.map_id p.toList]
  refine List.map_congr_left fun c hc => if_neg ?_
  rintro rfl
  exact h hc

/-- What is left is what stands after the characters in front. -/
theorem dropLead?_eq_some_iff {lead cs rest : List Char} :
    dropLead? lead cs = some rest ↔ cs = lead ++ rest := by
  induction lead generalizing cs with
  | nil => simp [dropLead?, eq_comm]
  | cons l lead ih =>
    cases cs with
    | nil => simp [dropLead?]
    | cons c cs =>
      by_cases h : l = c
      · simp [dropLead?, h, ih]
      · simp [dropLead?, h, Ne.symm h]

/-- What is left after the characters in front. -/
theorem dropLead?_append (lead rest : List Char) : dropLead? lead (lead ++ rest) = some rest :=
  dropLead?_eq_some_iff.mpr rfl

/-- What is below a directory is its name, alone or with a slash and anything after it. -/
theorem below?_isSome_iff {directory path : List Char} : (below? directory path).isSome = true ↔
    path = directory ∨ directory ++ ['/'] <+: path := by
  rw [below?, Option.isSome_iff_exists]
  simp only [Option.filter_eq_some_iff, dropLead?_eq_some_iff]
  constructor
  · rintro ⟨rest, rfl, hrest⟩
    cases rest with
    | nil => exact .inl (List.append_nil _)
    | cons c rest =>
      obtain rfl : c = '/' := by simpa [continuesBelow] using hrest
      exact .inr ⟨rest, by simp⟩
  · rintro (rfl | ⟨rest, rfl⟩)
    · exact ⟨[], (List.append_nil _).symm, rfl⟩
    · exact ⟨'/' :: rest, by simp, rfl⟩

/-- A character of joined names is a slash or stands in a name. -/
theorem mem_intercalate {c : Char} {pieces : List (List Char)} (h : c ∈ ['/'].intercalate pieces) :
    c = '/' ∨ ∃ piece ∈ pieces, c ∈ piece := by
  induction pieces with
  | nil => cases h
  | cons piece pieces ih =>
    cases pieces with
    | nil =>
      rw [List.intercalate_singleton] at h
      exact .inr ⟨piece, List.mem_cons_self, h⟩
    | cons second pieces =>
      rw [List.intercalate_cons_cons, List.append_assoc] at h
      rcases List.mem_append.mp h with hpiece | hrest
      · exact .inr ⟨piece, List.mem_cons_self, hpiece⟩
      · rcases List.mem_append.mp hrest with hslash | hrest
        · exact .inl (List.mem_singleton.mp hslash)
        · rcases ih hrest with hslash | ⟨p, hp, hc⟩
          · exact .inl hslash
          · exact .inr ⟨p, List.mem_cons_of_mem _ hp, hc⟩

/-- The path of names has no backslash where neither the directory nor a name has one. -/
theorem backslash_notMem_pathBelow {directory : String} (hdirectory : '\\' ∉ directory.toList)
    {names : List String} (hne : names ≠ []) (hnames : ∀ name ∈ names, IsName name)
    (hbackslash : ∀ name ∈ names, '\\' ∉ name.toList) :
    '\\' ∉ (Disk.pathBelow directory names).toList := by
  rw [toList_pathBelow directory hne hnames, List.mem_append, List.mem_append, gap]
  rintro (h | h | h)
  · exact hdirectory h
  · split at h <;> simp at h
  · rcases mem_intercalate h with h | ⟨piece, hpiece, h⟩
    · cases h
    · obtain ⟨name, hname, rfl⟩ := List.mem_map.mp hpiece
      exact hbackslash name hname h

/-- Slashes in front of joined names add no component. -/
theorem components_slashes_append {names : List String} (hne : names ≠ [])
    (hnames : ∀ name ∈ names, IsName name) (n : Nat) :
    components (String.ofList (List.replicate (n + 1) '/' ++
      ['/'].intercalate (names.map String.toList))) = names := by
  have hsplit := splitOn_ofComponents hne hnames
  rw [splitOn, splitOnChar, toList_ofComponents] at hsplit
  rw [components, splitOn, splitOnChar, String.toList_ofList, piecesAt_replicate_append,
    List.map_append, hsplit, List.map_replicate, List.filter_append]
  have hidle : (List.replicate (n + 1) (String.ofList [])).filter isNaming = [] := by
    rw [List.filter_eq_nil_iff]
    intro part hpart
    rw [List.eq_of_mem_replicate hpart]
    decide
  have hnaming : names.filter isNaming = names :=
    List.filter_eq_self.mpr fun name hname => by
      simp [isNaming, (hnames name hname).ne_empty, (hnames name hname).ne_dot]
  rw [hidle, hnaming, List.nil_append]

/-- **The name of the path of names below a root** is the joined names. -/
theorem relative_pathBelow {root : Root} (habsolute : isAbsolute root.directory = true)
    (hroot : '\\' ∉ root.directory.toList) {names : List String} (hne : names ≠ [])
    (hnames : ∀ name ∈ names, IsName name) (hbackslash : ∀ name ∈ names, '\\' ∉ name.toList) :
    root.relative (Disk.pathBelow root.directory names) = .ok (ofComponents names) := by
  have hpath := toList_pathBelow root.directory hne hnames
  obtain ⟨n, hgap⟩ := toList_append_gap habsolute
  have hplain := backslash_notMem_pathBelow hroot hne hnames hbackslash
  have habs : isAbsolute (Disk.pathBelow root.directory names) = true := by
    rw [isAbsolute, decide_eq_true_eq] at habsolute ⊢
    rw [hpath, List.head?_append, habsolute]
    rfl
  have hbelow : root.remainder? (Disk.pathBelow root.directory names) =
      some (List.replicate (n + 1) '/' ++ ['/'].intercalate (names.map String.toList)) := by
    rw [Root.remainder?, slashed_eq hplain, if_pos habs, Root.spelling, slashed_eq hroot,
      String.toList_ofList, hpath, ← List.append_assoc, hgap, List.append_assoc, below?,
      dropLead?_append]
    rfl
  have hcomponents := components_slashes_append hne hnames n
  have hdots : ".." ∉ names := fun h => (hnames _ h).ne_dots rfl
  simp only [Root.relative, hbelow, Option.map_some, hcomponents, if_neg hdots, Root.nameOf,
    List.isEmpty_eq_false_iff.mpr hne, Bool.false_eq_true, if_false]

/-! ## Excluded directories -/

/-- One more piece at the end. -/
theorem intercalate_concat {pieces : List (List Char)} (hne : pieces ≠ []) (last : List Char) :
    ['/'].intercalate (pieces ++ [last]) = ['/'].intercalate pieces ++ '/' :: last := by
  induction pieces with
  | nil => exact absurd rfl hne
  | cons piece pieces ih =>
    cases pieces with
    | nil => simp [List.intercalate_cons_cons]
    | cons second pieces =>
      rw [List.cons_append, List.intercalate_cons_of_ne_nil (by simp), ih (List.cons_ne_nil _ _),
        List.intercalate_cons_of_ne_nil (List.cons_ne_nil _ _)]
      simp only [List.append_assoc]

/-- Nothing is dropped where the first component is no dot. -/
theorem dropDotSlashes_eq {cs : List Char} (h : (piecesAt '/' cs).head? ≠ some ['.']) :
    dropDotSlashes cs = cs := by
  unfold dropDotSlashes
  split
  · next cs =>
    rw [show '.' :: '/' :: cs = ['.'] ++ '/' :: cs from rfl, piecesAt_append_cons] at h
    exact absurd rfl h
  · rfl

/-- The components of an absolute path end with those of its last piece. -/
theorem splitOn_absoluteOf (pieces : List String) (last : String) :
    ∃ front, splitOn '/' (absoluteOf (pieces ++ [last])) = front ++ splitOn '/' last := by
  simp only [splitOn, splitOnChar, absoluteOf, String.toList_append, toList_ofComponents,
    List.map_append, List.map_singleton]
  by_cases hpieces : pieces = []
  · refine ⟨[""], ?_⟩
    rw [hpieces, List.map_nil, List.nil_append, List.intercalate_singleton]
    exact congrArg _ (piecesAt_cons_self _)
  · refine ⟨(piecesAt '/' ('/' :: ['/'].intercalate (pieces.map String.toList))).map String.ofList,
      ?_⟩
    rw [intercalate_concat (by simpa using hpieces), ← List.map_append, ← piecesAt_append_cons]
    rfl

/-- The name is that of the directory, or starts with it and a slash. -/
def Lies (directory name : String) : Prop :=
  name = directory ∨ ∃ more, name = directory ++ "/" ++ more

/-- The root lies in no directory below it. -/
theorem not_lies_dot {names : List String} (hne : names ≠ []) (hnames : ∀ n ∈ names, IsName n) :
    ¬Lies (ofComponents names) "." := by
  rintro (hdot | ⟨more, hdot⟩)
  · have hsplit := splitOn_ofComponents hne hnames
    rw [← hdot] at hsplit
    have hmem : "." ∈ names := by
      rw [← hsplit]
      decide
    exact (hnames "." hmem).ne_dot rfl
  · have hslash : '/' ∈ ".".toList := by
      rw [hdot]
      simp
    exact absurd hslash (by decide)

/-- **An excluded directory is ignored**, with everything below it. -/
theorem isIgnored_of_lies {root : Root} {names : List String} {name : String} (hne : names ≠ [])
    (hnames : ∀ n ∈ names, IsName n) (h : ofComponents names ∈ root.excluded)
    (hlies : Lies (ofComponents names) name) : root.isIgnored name = true := by
  obtain ⟨tail, hname, htail⟩ : ∃ tail, name.toList = (ofComponents names).toList ++ tail ∧
      (tail = [] ∨ ∃ more, tail = '/' :: more) := by
    rcases hlies with rfl | ⟨more, rfl⟩
    · exact ⟨[], (List.append_nil _).symm, .inl rfl⟩
    · exact ⟨'/' :: more.toList, by simp, .inr ⟨more.toList, rfl⟩⟩
  have hbelow : (below? (ofComponents names).toList name.toList).isSome = true := by
    rw [below?_isSome_iff, hname]
    rcases htail with rfl | ⟨more, rfl⟩
    · exact .inl (List.append_nil _)
    · exact .inr ⟨more, by simp⟩
  -- the first component of the name is that of the directory
  obtain ⟨first, rest, rfl⟩ := List.exists_cons_of_ne_nil hne
  have hsplit := splitOn_ofComponents hne hnames
  have hsome : piecesAt '/' (ofComponents (first :: rest)).toList ≠ [] := piecesAt_ne_nil _
  obtain ⟨piece, pieces, hpieces⟩ := List.exists_cons_of_ne_nil hsome
  rw [splitOn, splitOnChar, hpieces, List.map_cons, List.cons.injEq] at hsplit
  have hhead : (piecesAt '/' name.toList).head? = some piece := by
    rw [hname]
    rcases htail with rfl | ⟨more, rfl⟩
    · rw [List.append_nil, hpieces, List.head?_cons]
    · rw [piecesAt_append_cons, hpieces, List.cons_append, List.head?_cons]
  have hdot : (piecesAt '/' name.toList).head? ≠ some ['.'] := by
    rw [hhead, Ne, Option.some.injEq]
    rintro rfl
    exact (hnames first List.mem_cons_self).ne_dot hsplit.1.symm
  rw [Root.isIgnored, Bool.or_eq_true]
  refine .inl (List.any_eq_true.mpr ⟨_, h, ?_⟩)
  rwa [dropDotSlashes_eq hdot]

/-- **What lies in an excluded directory is ignored.** -/
theorem isIgnored_of_excluded {root : Root} {names : List String} {name : String} (hne : names ≠ [])
    (hnames : ∀ n ∈ names ++ [name], IsName n) (h : ofComponents names ∈ root.excluded) :
    root.isIgnored (ofComponents (names ++ [name])) = true := by
  refine isIgnored_of_lies hne (fun n hn => hnames n (List.mem_append_left _ hn)) h
    (.inr ⟨name, ?_⟩)
  refine String.toList_inj.mp ?_
  rw [toList_ofComponents, List.map_append, List.map_singleton,
    intercalate_concat (by simpa using hne),
    ← toList_ofComponents]
  simp

end CodeAtlas.Path
