import CodeAtlas.Document
import Mathlib.Data.List.Forall2
import Mathlib.Tactic

/-!
# Sorting the levels of symbols

Setup: the symbols of a file form a forest, and every level of it is put into the order of the
lines. `Symbol.Arranged` says what that may do to a forest and nothing more: each level is in order,
symbols of one line stay as they were, and every symbol keeps what belongs to it. Sorting does just
that (`Symbol.arranged_sortLevels`), and so no symbol is lost (`Symbol.entries_sortLevels`).
-/

namespace CodeAtlas.Symbol

/-- What holds of a symbol once it holds of its members holds of all symbols. -/
theorem induction_members {p : Symbol → Prop} (h : ∀ s, (∀ m ∈ s.members, p m) → p s) (s : Symbol) :
    p s := by
  induction hn : sizeOf s using Nat.strong_induction_on generalizing s with
  | _ n ih =>
    subst hn
    apply h
    intro m hm
    cases s with
    | mk name kind line endLine signature members =>
      have hsize := List.sizeOf_lt_of_mem (show m ∈ members from hm)
      exact ih (sizeOf m) (by rw [mk.sizeOf_spec]; omega) m rfl

@[simp] theorem entry_withMembers (s : Symbol) (members : List Symbol) :
    (s.withMembers members).entry = s.entry := rfl

@[simp] theorem members_withMembers (s : Symbol) (members : List Symbol) :
    (s.withMembers members).members = members := rfl

@[simp] theorem withMembers_members (s : Symbol) : s.withMembers s.members = s := by
  cases s
  rfl

@[simp] theorem withMembers_withMembers (s : Symbol) (members members' : List Symbol) :
    (s.withMembers members).withMembers members' = s.withMembers members' := rfl

/-! ## Each symbol by itself -/

/-- Some symbols and all below them, each by itself. -/
def entries (symbols : List Symbol) : List SymbolEntry :=
  (flatten symbols).map fun found => found.1.entry

theorem flatten_append (symbols more : List Symbol) :
    flatten (symbols ++ more) = flatten symbols ++ flatten more := by
  simp only [flatten, List.flatMap_append]

@[simp] theorem entries_nil : entries [] = [] := rfl

theorem entries_append (symbols more : List Symbol) :
    entries (symbols ++ more) = entries symbols ++ entries more := by
  simp only [entries, flatten_append, List.map_append]

/-- Whose member a symbol is does not matter for the symbols below it. -/
theorem map_fst_flattenUnder (owner owner' : Option String) (s : Symbol) :
    (flattenUnder owner s).map Prod.fst = (flattenUnder owner' s).map Prod.fst := by
  cases s
  simp only [flattenUnder, List.map_cons]

/-- A symbol by itself, what belongs to it, and the symbols behind it. -/
theorem entries_cons (s : Symbol) (symbols : List Symbol) :
    entries (s :: symbols) = s.entry :: (entries s.members ++ entries symbols) := by
  have hmembers (owner : Option String) (members : List Symbol) :
      (members.flatMap (flattenUnder owner)).map (fun found => found.1.entry) =
        entries members := by
    rw [entries, flatten, List.map_flatMap, List.map_flatMap]
    apply List.flatMap_congr
    intro m _
    have hsame := congrArg (List.map entry) (map_fst_flattenUnder owner none m)
    rwa [List.map_map, List.map_map] at hsame
  cases s with
  | mk name kind line endLine signature members =>
    rw [entries, flatten, List.flatMap_cons, flattenUnder, List.cons_append, List.map_cons,
      List.map_append, hmembers]
    rfl

/-- Symbols without members are their entries. -/
theorem entries_of_members_eq_nil {symbols : List Symbol} (h : ∀ s ∈ symbols, s.members = []) :
    entries symbols = symbols.map entry := by
  induction symbols with
  | nil => rfl
  | cons s symbols ih =>
    obtain ⟨hs, hrest⟩ := List.forall_mem_cons.mp h
    rw [entries_cons, hs, ih hrest]
    rfl

/-- The order of the symbols does not matter for which there are. -/
theorem entries_perm {symbols symbols' : List Symbol} (h : symbols.Perm symbols') :
    (entries symbols).Perm (entries symbols') :=
  (h.flatMap_right _).map _

/-! ## Levels -/

/-- One level of symbols, and what sorting makes of it: the lines are in order, and the symbols of
one line are in the order in which they were. -/
structure InLineOrder (found sorted : List Symbol) : Prop where
  /-- the lines are in order -/
  ordered : sorted.Pairwise fun a b => a.line ≤ b.line
  /-- symbols of one line stay in order, and none is lost or gained -/
  stable : ∀ n, sorted.filter (·.line = n) = found.filter (·.line = n)

/-- A symbol, and the same one with the levels below it in order. -/
inductive Sorted : Symbol → Symbol → Prop
  /-- each member is sorted by itself, and then they are put into the order of their lines -/
  | mk {name : String} {kind : SymbolKind} {line endLine : Nat} {signature : String}
      {found moved sorted : List Symbol} (below : List.Forall₂ Sorted found moved)
      (level : InLineOrder moved sorted) :
      Sorted (mk name kind line endLine signature found)
        (mk name kind line endLine signature sorted)

/-- Symbols, and the same ones with all levels in order. -/
def Arranged (found sorted : List Symbol) : Prop :=
  ∃ moved, List.Forall₂ Sorted found moved ∧ InLineOrder moved sorted

/-- A level in order has the symbols that it had before. -/
theorem InLineOrder.perm {found sorted : List Symbol} (h : InLineOrder found sorted) :
    sorted.Perm found := by
  classical
  rw [List.perm_iff_count]
  intro s
  have hline (symbols : List Symbol) :
      (symbols.filter (·.line = s.line)).count s = symbols.count s :=
    List.count_filter (decide_eq_true rfl)
  rw [← hline sorted, h.stable, hline]

theorem decide_line_le_trans (a b c : Symbol) (hab : decide (a.line ≤ b.line) = true)
    (hbc : decide (b.line ≤ c.line) = true) : decide (a.line ≤ c.line) = true := by
  simp only [decide_eq_true_eq] at *
  omega

theorem decide_line_le_total (a b : Symbol) :
    (decide (a.line ≤ b.line) || decide (b.line ≤ a.line)) = true := by
  simp only [Bool.or_eq_true, decide_eq_true_eq]
  omega

@[simp] theorem mem_byLine {symbol : Symbol} {symbols : List Symbol} :
    symbol ∈ byLine symbols ↔ symbol ∈ symbols :=
  List.mem_mergeSort

/-- **Sorting by lines is stable.** -/
theorem inLineOrder_byLine (symbols : List Symbol) : InLineOrder symbols (byLine symbols) where
  ordered := by
    have hsorted := List.pairwise_mergeSort decide_line_le_trans decide_line_le_total symbols
    exact hsorted.imp fun h => of_decide_eq_true h
  stable n := by
    -- the symbols of one line are in order as they are, so sorting keeps them as a part
    have hline :
        (symbols.filter (·.line = n)).Pairwise fun a b => decide (a.line ≤ b.line) = true := by
      apply List.pairwise_of_forall_mem_list
      intro a ha b hb
      have ha := (List.mem_filter.mp ha).2
      have hb := (List.mem_filter.mp hb).2
      simp only [decide_eq_true_eq] at *
      omega
    have hpart : (symbols.filter (·.line = n)).Sublist (byLine symbols) :=
      List.sublist_mergeSort decide_line_le_trans decide_line_le_total hline List.filter_sublist
    have hfilter := hpart.filter (·.line = n)
    rw [List.filter_filter] at hfilter
    simp only [Bool.and_self] at hfilter
    have hperm : ((byLine symbols).filter (·.line = n)).Perm (symbols.filter (·.line = n)) :=
      (List.mergeSort_perm _ _).filter _
    exact (hfilter.eq_of_length hperm.length_eq.symm).symm

theorem sorted_sortMembers (s : Symbol) : Sorted s s.sortMembers := by
  induction s using induction_members with
  | h s ih =>
    cases s with
    | mk name kind line endLine signature members =>
      rw [sortMembers]
      refine .mk ?_ (inLineOrder_byLine _)
      rw [List.forall₂_map_right_iff, List.forall₂_same]
      exact ih

/-- **What sorting does to a forest.** -/
theorem arranged_sortLevels (symbols : List Symbol) : Arranged symbols (sortLevels symbols) := by
  refine ⟨symbols.map sortMembers, ?_, inLineOrder_byLine _⟩
  rw [List.forall₂_map_right_iff, List.forall₂_same]
  intro s _
  exact sorted_sortMembers s

/-! ## Nothing is lost -/

theorem entry_sortMembers (s : Symbol) : s.sortMembers.entry = s.entry := by
  cases s
  rw [sortMembers]
  rfl

/-- If sorting loses nothing below each of some symbols, it loses none of the symbols. -/
theorem entries_map_sortMembers {symbols : List Symbol}
    (h : ∀ s ∈ symbols, (entries s.sortMembers.members).Perm (entries s.members)) :
    (entries (symbols.map sortMembers)).Perm (entries symbols) := by
  induction symbols with
  | nil => exact .refl _
  | cons s symbols ih =>
    obtain ⟨hs, hrest⟩ := List.forall_mem_cons.mp h
    rw [List.map_cons, entries_cons, entries_cons, entry_sortMembers]
    exact (hs.append (ih hrest)).cons _

theorem entries_sortMembers (s : Symbol) :
    (entries s.sortMembers.members).Perm (entries s.members) := by
  induction s using induction_members with
  | h s ih =>
    cases s with
    | mk name kind line endLine signature symbols =>
      rw [sortMembers]
      exact (entries_perm (inLineOrder_byLine _).perm).trans (entries_map_sortMembers ih)

/-- **Sorting all levels loses nothing.** -/
theorem entries_sortLevels (symbols : List Symbol) :
    (entries (sortLevels symbols)).Perm (entries symbols) := by
  refine (entries_perm (inLineOrder_byLine _).perm).trans (entries_map_sortMembers ?_)
  intro s _
  exact entries_sortMembers s

end CodeAtlas.Symbol
