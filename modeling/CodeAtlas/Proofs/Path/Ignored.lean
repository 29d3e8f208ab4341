import CodeAtlas.Proofs.Path.Canonical

/-!
# What is ignored is ignored with everything below

Setup: an ignored sequence of components may occur anywhere in a name, an excluded directory only in
front of it (`Root.isIgnored_ofComponents`). Both stay where they are when components are put behind
the name (`Root.isIgnored_append`), so a name is ignored exactly if it or a directory that it lies
in is (**`Root.isIgnored_iff_way`**). The root itself is no such directory: no look is ever taken at
its name.
-/

namespace CodeAtlas.Path

open CodeAtlas.Text

variable {r : Root} {names more sequence : List String} {directory name : String}

/-- Joined names and more of them. -/
theorem ofComponents_append (hne : names ≠ []) (hmore : more ≠ []) :
    ofComponents (names ++ more) = ofComponents names ++ "/" ++ ofComponents more := by
  induction names with
  | nil => exact absurd rfl hne
  | cons first rest ih =>
    cases rest with
    | nil =>
      obtain ⟨second, others, rfl⟩ := List.exists_cons_of_ne_nil hmore
      simp only [ofComponents, List.cons_append, List.nil_append, String.intercalate_cons_cons,
        String.intercalate_singleton]
    | cons second rest =>
      rw [ofComponents, ofComponents, List.cons_append, List.cons_append,
        String.intercalate_cons_cons,
        String.intercalate_cons_cons, ← List.cons_append, ← ofComponents, ih (List.cons_ne_nil _ _)]
      simp only [ofComponents, String.append_assoc]

/-- What lies in a directory lies in it with everything below. -/
theorem Lies.append (h : Lies directory name) (tail : String) :
    Lies directory (name ++ "/" ++ tail) := by
  rcases h with rfl | ⟨rest, rfl⟩
  · exact .inr ⟨tail, rfl⟩
  · exact .inr ⟨rest ++ "/" ++ tail, by simp [String.append_assoc]⟩

namespace Root

/-- A sequence occurs among components as a run of them. -/
theorem occursAmong_iff : occursAmong sequence names = true ↔ sequence <:+: names := by
  induction names with
  | nil => rw [occursAmong, List.isEmpty_iff, List.infix_nil]
  | cons component rest ih =>
    rw [occursAmong, Bool.or_eq_true, List.isPrefixOf_iff_prefix, ih, List.infix_cons_iff]

/-- A directory takes in a name if the name lies in it. -/
theorem below?_isSome_iff_lies :
    (below? directory.toList name.toList).isSome = true ↔ Lies directory name := by
  rw [below?_isSome_iff, String.toList_inj]
  refine or_congr_right ⟨?_, ?_⟩
  · rintro ⟨rest, hrest⟩
    exact ⟨String.ofList rest, String.toList_inj.mp (by simp [← hrest])⟩
  · rintro ⟨rest, rfl⟩
    exact ⟨rest.toList, by simp⟩

/-- **Which names are ignored**, by their components. -/
theorem isIgnored_ofComponents (hne : names ≠ []) (hnames : ∀ n ∈ names, IsName n) :
    r.isIgnored (ofComponents names) = true ↔
      (∃ directory ∈ r.excluded, Lies directory (ofComponents names)) ∨
        ∃ sequence ∈ r.ignored, sequence <:+: names := by
  have hcomponents : ((splitOnChar '/' (ofComponents names).toList).filterMap fun part =>
      if part.isEmpty then none else some (String.ofList part)) = names := by
    rw [splitOnChar, piecesAt_ofComponents hne hnames, List.filterMap_map]
    refine (List.filterMap_congr fun n hn => ?_).trans List.filterMap_some
    simp [(hnames n hn).ne_empty]
  rw [isIgnored, dropDotSlashes_ofComponents hne hnames]
  simp only [hcomponents, Bool.or_eq_true, List.any_eq_true, below?_isSome_iff_lies,
    occursAmong_iff]

/-- **What lies in an ignored place is ignored.** -/
theorem isIgnored_append (hne : names ≠ []) (hnames : ∀ n ∈ names ++ more, IsName n)
    (h : r.isIgnored (ofComponents names) = true) :
    r.isIgnored (ofComponents (names ++ more)) = true := by
  rw [isIgnored_ofComponents hne fun n hn => hnames n (List.mem_append_left _ hn)] at h
  rw [isIgnored_ofComponents (List.append_ne_nil_of_left_ne_nil hne _) hnames]
  rcases h with ⟨directory, hdirectory, hlies⟩ | ⟨sequence, hsequence, hinfix⟩
  · refine .inl ⟨directory, hdirectory, ?_⟩
    by_cases hmore : more = []
    · rwa [hmore, List.append_nil]
    · rw [ofComponents_append hne hmore]
      exact hlies.append _
  · exact .inr ⟨sequence, hsequence, hinfix.trans (List.prefix_append _ _).isInfix⟩

/-- A name is ignored exactly if it, or a directory that it lies in, is. -/
theorem isIgnored_iff_way (hne : names ≠ []) (hnames : ∀ n ∈ names, IsName n) :
    r.isIgnored (ofComponents names) = true ↔
      ∃ way, way ≠ [] ∧ way <+: names ∧ r.isIgnored (ofComponents way) = true := by
  constructor
  · exact fun h => ⟨names, hne, List.prefix_rfl, h⟩
  · rintro ⟨way, hway, ⟨more, rfl⟩, h⟩
    exact isIgnored_append hway hnames h

end Root

end CodeAtlas.Path
