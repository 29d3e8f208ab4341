import CodeAtlas.Proofs.Path.Canonical

/-!
# Names that stray from the root

Setup: whether a name is accepted is decided after its backslashes have been turned into slashes,
but its path is that of the name as it was (`Root.absolute`). A relative name goes on behind the
root either way, and so does an absolute one in which the text of the root stands as it is
(`Root.continues_of_accepted`). An absolute name with a backslash for a slash of the root is
accepted too, and strays (`Root.Strays`): its first component that has the backslash is none of the
root's (**`Root.not_prefix_of_strays`**).
-/

namespace CodeAtlas.Path

open CodeAtlas.Text

variable {r : Root} {name component accepted : String} {cs text rest : List Char}

/-! ## Backslashes -/

/-- A slash for a backslash. -/
def slashedChar (c : Char) : Char :=
  if c = '\\' then '/' else c

theorem toList_slashed (p : String) : (slashed p).toList = p.toList.map slashedChar :=
  String.toList_map

theorem slashed_ofList (cs : List Char) :
    slashed (String.ofList cs) = String.ofList (cs.map slashedChar) :=
  String.toList_inj.mp (by rw [toList_slashed, String.toList_ofList, String.toList_ofList])

/-- Nothing is slashed where there is no backslash. -/
theorem map_slashedChar_eq (h : '\\' ∉ cs) : cs.map slashedChar = cs := by
  have hslashed := toList_slashed (String.ofList cs)
  rw [slashed_eq (by simpa using h), String.toList_ofList] at hslashed
  exact hslashed.symm

/-- Slashing splits pieces further: those without backslashes stay, the first one as the first. -/
theorem piecesAt_map_slashedChar (cs : List Char) : ∃ first others first' others',
    piecesAt '/' cs = first :: others ∧ piecesAt '/' (cs.map slashedChar) = first' :: others' ∧
      ('\\' ∉ first → first' = first) ∧ ∀ piece ∈ others, '\\' ∉ piece → piece ∈ others' := by
  induction cs with
  | nil => exact ⟨[], [], [], [], rfl, rfl, fun _ => rfl, nofun⟩
  | cons c cs ih =>
    obtain ⟨first, others, first', others', hraw, hslashed, hfirst, hothers⟩ := ih
    have hall : ∀ piece ∈ first :: others, '\\' ∉ piece → piece ∈ first' :: others' := by
      rintro piece (_ | ⟨_, hpiece⟩) hplain
      · rw [hfirst hplain]
        exact List.mem_cons_self
      · exact List.mem_cons_of_mem _ (hothers piece hpiece hplain)
    by_cases hslash : c = '/'
    · refine ⟨[], first :: others, [], first' :: others', ?_, ?_, fun _ => rfl, hall⟩
      · rw [hslash, piecesAt_cons_self, hraw]
      · rw [hslash, List.map_cons, show slashedChar '/' = '/' by decide, piecesAt_cons_self,
          hslashed]
    · obtain ⟨piece, more, hpieces, hcons⟩ := piecesAt_cons_of_ne hslash cs
      rw [hraw] at hpieces
      cases hpieces
      by_cases hback : c = '\\'
      · refine ⟨_, _, [], first' :: others', hcons, ?_, fun h => ?_, fun piece hpiece hplain => ?_⟩
        · rw [hback, List.map_cons, show slashedChar '\\' = '/' by decide, piecesAt_cons_self,
            hslashed]
        · exact absurd (hback ▸ List.mem_cons_self) h
        · exact List.mem_cons_of_mem _ (hothers piece hpiece hplain)
      · obtain ⟨piece', more', hpieces', hcons'⟩ := piecesAt_cons_of_ne hslash (cs.map slashedChar)
        rw [hslashed] at hpieces'
        cases hpieces'
        refine ⟨c :: first, others, c :: first', others', hcons, ?_, fun h => ?_, hothers⟩
        · rw [List.map_cons, show slashedChar c = c from if_neg hback]
          exact hcons'
        · rw [hfirst fun hmem => h (List.mem_cons_of_mem _ hmem)]

/-- A component without backslashes is one of the slashed path. -/
theorem mem_components_slashed (h : component ∈ components name)
    (hplain : '\\' ∉ component.toList) :
    component ∈ components (slashed name) := by
  rw [components, List.mem_filter] at h ⊢
  refine ⟨?_, h.2⟩
  obtain ⟨piece, hpiece, rfl⟩ := List.mem_map.mp h.1
  rw [String.toList_ofList] at hplain
  refine List.mem_map.mpr ⟨piece, ?_, rfl⟩
  obtain ⟨first, others, first', others', hraw, hslashed, hfirst, hothers⟩ :=
    piecesAt_map_slashedChar name.toList
  rw [splitOnChar, hraw] at hpiece
  rw [splitOnChar, toList_slashed, hslashed]
  rcases List.mem_cons.mp hpiece with rfl | hpiece
  · rw [hfirst hplain]
    exact List.mem_cons_self
  · exact List.mem_cons_of_mem _ (hothers piece hpiece hplain)

/-- Where a slashed text goes on behind a text without backslashes, it did so before, or it has a
backslash for a slash there. -/
theorem split_of_map_slashedChar (h : cs.map slashedChar = text ++ rest)
    (hrest : rest = [] ∨ rest.head? = some '/') (hplain : '\\' ∉ text) :
    (∃ rest', cs = text ++ rest' ∧ continuesBelow rest' = true) ∨
      ∃ front back tail, cs = front ++ '\\' :: back ∧ text = front ++ tail := by
  induction text generalizing cs with
  | nil =>
    cases cs with
    | nil => exact .inl ⟨[], rfl, rfl⟩
    | cons c cs =>
      by_cases hback : c = '\\'
      · exact .inr ⟨[], cs, [], by rw [hback]; rfl, rfl⟩
      · refine .inl ⟨c :: cs, rfl, ?_⟩
        rw [List.nil_append, List.map_cons, show slashedChar c = c from if_neg hback] at h
        rw [← h] at hrest
        simpa [continuesBelow] using hrest
  | cons t text ih =>
    cases cs with
    | nil => cases h
    | cons c cs =>
      rw [List.map_cons, List.cons_append, List.cons.injEq] at h
      by_cases hback : c = '\\'
      · exact .inr ⟨[], cs, t :: text, by rw [hback]; rfl, rfl⟩
      · have hc : c = t := by rw [← h.1, slashedChar, if_neg hback]
        subst hc
        rcases ih h.2 fun hmem => hplain (List.mem_cons_of_mem _ hmem) with
          ⟨rest', rfl, hcontinues⟩ | ⟨front, back, tail, rfl, rfl⟩
        · exact .inl ⟨rest', rfl, hcontinues⟩
        · exact .inr ⟨c :: front, back, tail, rfl, rfl⟩

/-- A text with slashes has a last one. -/
theorem exists_last_slash (h : '/' ∈ cs) : ∃ before inside, cs = before ++ '/' :: inside ∧
    '/' ∉ inside := by
  obtain ⟨inside, before, hreverse, hinside⟩ := List.eq_append_cons_of_mem (List.mem_reverse.mpr h)
  refine ⟨before.reverse, inside.reverse, ?_, by rwa [List.mem_reverse]⟩
  rw [← List.reverse_reverse cs, hreverse, List.reverse_append, List.reverse_cons,
    List.append_assoc]
  rfl

/-- Behind a slash there is a component if the last piece of the path is one. -/
theorem components_ne_nil_of_last {before : List Char}
    (h : (splitOn '/' (String.ofList (before ++ '/' :: cs))).getLast?.any isNaming = true) :
    components (String.ofList cs) ≠ [] := by
  intro hnil
  have hne := splitOn_ne_nil (String.ofList cs)
  rw [splitOn_append_cons, List.getLast?_append, List.getLast?_eq_some_getLast hne, Option.some_or,
    Option.any_some] at h
  have hmem := List.mem_filter.mpr ⟨List.getLast_mem hne, h⟩
  rw [← components, hnil] at hmem
  cases hmem

/-- Characters without slashes belong to the first piece. -/
theorem piecesAt_append_of_notMem (h : '/' ∉ cs) (text : List Char) : ∃ first others,
    piecesAt '/' text = first :: others ∧ piecesAt '/' (cs ++ text) = (cs ++ first) :: others := by
  induction cs with
  | nil =>
    obtain ⟨first, others, hpieces⟩ := List.exists_cons_of_ne_nil (@piecesAt_ne_nil Char _ '/' text)
    exact ⟨first, others, hpieces, hpieces⟩
  | cons c cs ih =>
    obtain ⟨first, others, htext, hpieces⟩ := ih fun hmem => h (List.mem_cons_of_mem _ hmem)
    have hc : c ≠ '/' := fun hc => h (hc ▸ List.mem_cons_self)
    obtain ⟨piece, more, hall, hcons⟩ := piecesAt_cons_of_ne hc (cs ++ text)
    rw [hpieces] at hall
    cases hall
    exact ⟨first, others, htext, hcons⟩

/-- A text with a backslash in front of its first slash has it in its first component. -/
theorem components_append_backslash (h : '/' ∉ cs) (text : List Char) : ∃ first others,
    components (String.ofList (cs ++ '\\' :: text)) = String.ofList (cs ++ '\\' :: first) ::
      others := by
  have hslash : '/' ∉ cs ++ ['\\'] := by simp [h]
  obtain ⟨first, others, -, hpieces⟩ := piecesAt_append_of_notMem hslash text
  rw [List.append_assoc, List.append_assoc] at hpieces
  refine ⟨first, (others.map String.ofList).filter isNaming, ?_⟩
  have hnaming : isNaming (String.ofList (cs ++ '\\' :: first)) = true := by
    rw [isNaming, Bool.and_eq_true, decide_eq_true_eq, decide_eq_true_eq]
    constructor <;> intro heq <;> have hlist := congrArg String.toList heq
    · simp at hlist
    · have hmem : '\\' ∈ ".".toList := by
        rw [← hlist]
        simp
      exact absurd hmem (by decide)
  rw [components, splitOn, splitOnChar, String.toList_ofList]
  change ((piecesAt '/' (cs ++ (['\\'] ++ text))).map String.ofList).filter isNaming = _
  rw [hpieces, List.map_cons]
  exact List.filter_cons_of_pos hnaming

namespace Root

/-! ## Accepted names -/

/-- An absolute name whose text does not go on from that of the root. -/
def Strays (r : Root) (name : String) : Prop :=
  isAbsolute name = true ∧ below? r.spelling.toList name.toList = none

/-- A root without backslashes is spelled without its last slashes. -/
theorem toList_spelling (hroot : '\\' ∉ r.directory.toList) :
    r.spelling.toList = dropEndSlashes r.directory.toList := by
  rw [spelling, slashed_eq hroot, String.toList_ofList]

theorem backslash_notMem_spelling (hroot : '\\' ∉ r.directory.toList) :
    '\\' ∉ r.spelling.toList := by
  obtain ⟨n, hn⟩ := eq_dropEndSlashes_append r.directory.toList
  rw [toList_spelling hroot]
  intro h
  rw [hn] at hroot
  exact hroot (List.mem_append_left _ h)

/-- An accepted absolute name, once slashed, goes on from the text of the root, and never up. -/
theorem slashed_of_accepted (hname : isAbsolute name = true) (h : r.relative name = .ok accepted) :
    ∃ rest, (slashed name).toList = r.spelling.toList ++ rest ∧
      (rest = [] ∨ rest.head? = some '/') ∧
      ".." ∉ components (String.ofList rest) := by
  obtain ⟨rest, hrest, hup, -⟩ := relative_eq_ok_iff.mp h
  rw [remainder?, if_pos hname, below?, Option.filter_eq_some_iff, dropLead?_eq_some_iff] at hrest
  exact ⟨rest, hrest.1, continuesBelow_iff.mp hrest.2, hup⟩

/-- An accepted relative name leads never up. -/
theorem not_up_of_accepted (hname : isAbsolute name = false) (h : r.relative name = .ok accepted) :
    ".." ∉ components name := by
  obtain ⟨rest, hrest, hup, -⟩ := relative_eq_ok_iff.mp h
  rw [remainder?, if_neg (by simp [hname])] at hrest
  dsimp only at hrest
  split_ifs at hrest
  cases hrest
  rw [components_dropDotSlashes, String.ofList_toList] at hup
  exact fun hmem => hup (mem_components_slashed hmem (by decide))

/-- **An accepted name that does not stray** goes on from the text of the root, and never up. -/
theorem continues_of_accepted (habsolute : isAbsolute r.directory = true)
    (hroot : '\\' ∉ r.directory.toList)
    (h : r.relative name = .ok accepted) (hstays : ¬r.Strays name) :
    ∃ rest, (r.absolute name).toList = r.spelling.toList ++ rest ∧
      (rest = [] ∨ rest.head? = some '/') ∧
      ".." ∉ components (String.ofList rest) := by
  cases hname : isAbsolute name with
  | true =>
    obtain ⟨rest, hrest⟩ := Option.ne_none_iff_exists'.mp fun hnone => hstays ⟨hname, hnone⟩
    rw [below?, Option.filter_eq_some_iff, dropLead?_eq_some_iff] at hrest
    obtain ⟨htext, hcontinues⟩ := hrest
    refine ⟨rest, by rw [absolute, join, if_pos hname, htext], continuesBelow_iff.mp hcontinues,
      fun hmem => ?_⟩
    obtain ⟨rest', hslashed, -, hup⟩ := slashed_of_accepted hname h
    rw [toList_slashed, htext, List.map_append,
      map_slashedChar_eq (backslash_notMem_spelling hroot),
      List.append_cancel_left_eq] at hslashed
    rw [← hslashed, ← slashed_ofList] at hup
    exact hup (mem_components_slashed hmem (by decide))
  | false =>
    obtain ⟨n, hgap⟩ := toList_append_gap habsolute
    refine ⟨List.replicate (n + 1) '/' ++ name.toList, ?_, .inr rfl, ?_⟩
    · rw [absolute, toList_join hname, ← List.append_assoc, hgap, List.append_assoc,
        toList_spelling hroot]
    · rw [components_replicate_append, String.ofList_toList]
      exact not_up_of_accepted hname h

/-- An accepted absolute name leads never up where the root does not. -/
theorem dots_notMem_of_accepted (hroot : '\\' ∉ r.directory.toList)
    (hdots : ".." ∉ components r.directory)
    (hname : isAbsolute name = true) (h : r.relative name = .ok accepted) :
    ".." ∉ components name := by
  obtain ⟨rest, hslashed, hrest, hup⟩ := slashed_of_accepted hname h
  have hcomponents := @components_append r.spelling.toList rest hrest
  rw [← hslashed, String.ofList_toList, toList_spelling hroot, components_dropEndSlashes,
    String.ofList_toList] at hcomponents
  intro hmem
  have hmem := mem_components_slashed hmem (by decide)
  rw [hcomponents] at hmem
  exact (List.mem_append.mp hmem).elim hdots hup

/-- **A name that strays** has other components than the root. -/
theorem not_prefix_of_strays (hroot : '\\' ∉ r.directory.toList)
    (hlast : (splitOn '/' r.spelling).getLast?.any isNaming = true)
    (h : r.relative name = .ok accepted)
    (hstrays : r.Strays name) : ¬components r.directory <+: components name := by
  obtain ⟨hname, hnone⟩ := hstrays
  have hplain := backslash_notMem_spelling hroot
  obtain ⟨rest, hslashed, hrest, -⟩ := slashed_of_accepted hname h
  rw [toList_slashed] at hslashed
  rcases split_of_map_slashedChar hslashed hrest hplain with
    ⟨rest', htext, hcontinues⟩ | ⟨front, back, tail, htext, hspelling⟩
  · rw [below?, htext, dropLead?_append, Option.filter_some, hcontinues] at hnone
    cases hnone
  · -- the last slash in front of the backslash
    have hslash : '/' ∈ front := by
      rw [isAbsolute, decide_eq_true_eq, htext] at hname
      cases front with
      | nil => simp at hname
      | cons c front =>
        rw [List.cons_append, List.head?_cons, Option.some.injEq] at hname
        exact hname ▸ List.mem_cons_self
    obtain ⟨before, inside, hfront, hinside⟩ := exists_last_slash hslash
    rw [hfront, List.append_assoc, List.cons_append] at htext hspelling
    have hroot' : components r.directory = components (String.ofList before) ++
        components (String.ofList (inside ++ tail)) := by
      rw [← components_append_cons, ← hspelling, toList_spelling hroot, components_dropEndSlashes,
        String.ofList_toList]
    have hname' : components name = components (String.ofList before) ++
        components (String.ofList (inside ++ '\\' :: back)) := by
      rw [← components_append_cons, ← htext, String.ofList_toList]
    rw [hroot', hname', List.prefix_append_right_inj]
    intro hbelow
    -- the root has a first component behind that slash, and it would be the one with the backslash
    obtain ⟨component, more, hsome⟩ : ∃ component more,
        components (String.ofList (inside ++ tail)) = component :: more := by
      have htext' : r.spelling = String.ofList (before ++ '/' :: (inside ++ tail)) := by
        rw [← hspelling, String.ofList_toList]
      rw [htext'] at hlast
      exact List.exists_cons_of_ne_nil (components_ne_nil_of_last hlast)
    obtain ⟨piece, others, hfirst⟩ := components_append_backslash hinside back
    rw [hsome, hfirst, List.cons_prefix_cons] at hbelow
    have hmem : '\\' ∈ component.toList := by
      rw [hbelow.1]
      simp
    have hspelled := mem_of_mem_components (hsome ▸ List.mem_cons_self) hmem
    rw [String.toList_ofList] at hspelled
    exact hplain (hspelling ▸ List.mem_append_right _ (List.mem_cons_of_mem _ hspelled))

end Root

end CodeAtlas.Path
