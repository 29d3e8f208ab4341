import CodeAtlas.Proofs.Symbol.Conservation

/-!
# Owners and members

Setup: a symbol below another one is listed with the name of its owner. `Symbol.Sound` says of a
forest that only types have members and that no member is a function. Then every symbol that is
listed with an owner comes behind that owner (`Symbol.owner_before_of_flatten`). What nodes declare
is sound, attaching members and sorting levels keep it so, and in the end the symbols of a file are
sound (**`sound_of_mem_declarations`**).
-/

namespace CodeAtlas

variable {l : Language} {s : Source}

/-! ## Sound forests -/

namespace Symbol

/-- On all levels, only what may own members has any, and no member is a function. -/
inductive Sound : Symbol → Prop
  /-- from the members -/
  | mk {name : String} {kind : SymbolKind} {line endLine : Nat} {signature : String}
      {members : List Symbol}
      (owner : ∀ m ∈ members, kind.ownsMembers = true ∧ m.kind ≠ .function)
      (below : ∀ m ∈ members, Sound m) : Sound (mk name kind line endLine signature members)

theorem Bare.sound {inType : Bool} {symbol : Symbol} (h : symbol.Bare inType) : symbol.Sound := by
  cases symbol with
  | mk name kind line endLine signature members =>
    obtain rfl : members = [] := h.members
    exact .mk (by simp) (by simp)

theorem Sound.of_mem {symbol m : Symbol} (h : symbol.Sound) (hm : m ∈ symbol.members) :
    m.Sound ∧ m.kind ≠ .function := by
  obtain ⟨owner, below⟩ := h
  exact ⟨below m hm, (owner m hm).2⟩

theorem Sound.withMembers {symbol : Symbol} {members : List Symbol}
    (howns : symbol.kind.ownsMembers = true) (h : ∀ m ∈ members, m.Sound ∧ m.kind ≠ .function) :
    (symbol.withMembers members).Sound := by
  apply Sound.mk
  · intro m hm
    exact ⟨howns, (h m hm).2⟩
  · intro m hm
    exact (h m hm).1

theorem kind_sortMembers (symbol : Symbol) : symbol.sortMembers.kind = symbol.kind :=
  congrArg SymbolEntry.kind (entry_sortMembers symbol)

theorem Sound.sortMembers {symbol : Symbol} (h : symbol.Sound) : symbol.sortMembers.Sound := by
  induction symbol using induction_members with
  | h symbol ih =>
    obtain ⟨owner, below⟩ := h
    rw [Symbol.sortMembers]
    apply Sound.mk
    · intro m hm
      rw [mem_byLine] at hm
      obtain ⟨x, hx, rfl⟩ := List.mem_map.mp hm
      rw [kind_sortMembers]
      exact owner x hx
    · intro m hm
      rw [mem_byLine] at hm
      obtain ⟨x, hx, rfl⟩ := List.mem_map.mp hm
      exact ih x hx (below x hx)

theorem sound_of_mem_sortLevels {symbols : List Symbol} (h : ∀ x ∈ symbols, x.Sound)
    {symbol : Symbol} (hmem : symbol ∈ sortLevels symbols) : symbol.Sound := by
  rw [sortLevels, mem_byLine] at hmem
  obtain ⟨x, hx, rfl⟩ := List.mem_map.mp hmem
  exact (h x hx).sortMembers

/-! ## Owners come first -/

/-- A place in a list that is put together from parts lies in one of the parts. -/
theorem exists_part_of_flatMap {α β : Type} {f : α → List β} {xs : List α} {before after : List β}
    {b : β} (h : xs.flatMap f = before ++ b :: after) :
    ∃ x ∈ xs, ∃ before' after', f x = before' ++ b :: after' ∧ before' ⊆ before := by
  induction xs generalizing before with
  | nil => cases before <;> cases h
  | cons x xs ih =>
    rw [List.flatMap_cons, List.append_eq_append_iff] at h
    rcases h with ⟨rest, hbefore, hrest⟩ | ⟨rest, hx, hrest⟩
    · obtain ⟨y, hy, before', after', hfy, hsub⟩ := ih hrest
      refine ⟨y, List.mem_cons_of_mem _ hy, before', after', hfy, ?_⟩
      rw [hbefore]
      exact fun b hb => List.mem_append_right _ (hsub hb)
    · cases rest with
      | nil =>
        obtain ⟨y, hy, before', after', hfy, hsub⟩ := @ih [] hrest.symm
        refine ⟨y, List.mem_cons_of_mem _ hy, before', after', hfy, ?_⟩
        exact fun b hb => absurd (hsub hb) List.not_mem_nil
      | cons c rest =>
        obtain ⟨rfl, -⟩ := List.cons.inj hrest
        exact ⟨x, List.mem_cons_self, before, rest, hx, List.Subset.refl _⟩

/-- Below a sound symbol every other symbol comes behind its owner. -/
theorem Sound.owner_before {symbol : Symbol} (h : symbol.Sound) {outer : Option String}
    {before after : List (Symbol × Option String)} {found : Symbol × Option String}
    (hflat : flattenUnder outer symbol = before ++ found :: after) (hbefore : before ≠ []) :
    found.1.kind ≠ .function ∧
      ∃ p ∈ before, found.2 = some p.1.name ∧ p.1.kind.ownsMembers = true := by
  induction symbol using induction_members generalizing outer before after with
  | h symbol ih =>
    obtain ⟨owner, below⟩ := h
    rename_i name kind line endLine signature members
    rw [flattenUnder] at hflat
    obtain ⟨self, before, rfl⟩ := List.exists_cons_of_ne_nil hbefore
    obtain ⟨hself, hrest⟩ := List.cons.inj hflat
    subst hself
    obtain ⟨m, hm, before', after', hpart, hsub⟩ := exists_part_of_flatMap hrest
    cases hhead : before' with
    | nil =>
      -- the place is that of a member itself
      cases m with
      | mk name' kind' line' endLine' signature' members' =>
        rw [hhead, flattenUnder, List.nil_append] at hpart
        obtain ⟨rfl, -⟩ := List.cons.inj hpart
        exact ⟨(owner _ hm).2, _, List.mem_cons_self, rfl, (owner _ hm).1⟩
    | cons first before'' =>
      obtain ⟨hkind, p, hp, howner⟩ := ih m hm (below m hm) hpart (by simp [hhead])
      exact ⟨hkind, p, List.mem_cons_of_mem _ (hsub hp), howner⟩

/-- **Owners come first** in a sound forest, and no member is a function. -/
theorem owner_before_of_flatten {symbols : List Symbol} (h : ∀ x ∈ symbols, x.Sound)
    {before after : List (Symbol × Option String)} {symbol : Symbol} {owner : String}
    (hflat : flatten symbols = before ++ (symbol, some owner) :: after) :
    symbol.kind ≠ .function ∧
      ∃ p ∈ before, p.1.name = owner ∧ p.1.kind.ownsMembers = true := by
  obtain ⟨x, hx, before', after', hpart, hsub⟩ := exists_part_of_flatMap hflat
  have hne : before' ≠ [] := by
    rintro rfl
    cases x
    rw [flattenUnder] at hpart
    cases (List.cons.inj hpart).1
  obtain ⟨hkind, p, hp, hname, howns⟩ := (h x hx).owner_before hpart hne
  exact ⟨hkind, p, hsub hp, (Option.some.inj hname).symm, howns⟩

end Symbol

/-! ## What nodes declare is sound -/

namespace Language

variable {inType : Bool} {t : ParseTree}

/-- What belongs to a type declared elsewhere is no function. -/
theorem member_of_ownerApart (inType : Bool) {owner : String} (h : l.ownerApart? s t = some owner) :
    (l.opened s t = [] ∨ l.inTypeBelow inType t = true) ∧
      ∀ x ∈ l.declaredBy s inType t, x.kind ≠ .function := by
  unfold ownerApart? at h
  split at h
  · next hrule => simp [inTypeBelow, declaredBy, hrule]
  · next hrule =>
    simp only [opened, declaredBy, hrule, true_or, true_and, Option.mem_toList]
    intro x hx
    obtain ⟨name, -, rfl⟩ := Option.map_eq_some_iff.mp hx
    simp [symbolAt, Symbol.kind]
  · cases h

theorem inTypeBelow_of_inType (h : inType = true) (t : ParseTree) :
    l.inTypeBelow inType t = true := by
  unfold inTypeBelow
  split
  · rfl
  · rfl
  · exact h

theorem owner_of_holdsMembers (s : Source) (inType : Bool) (h : l.holdsMembers t = true) :
    l.inTypeBelow inType t = true ∧ ∀ x ∈ l.declaredBy s inType t, x.kind.ownsMembers = true := by
  unfold holdsMembers at h
  split at h
  · next kind hrule =>
    simp only [inTypeBelow, declaredBy, hrule, true_and, Option.mem_toList]
    intro x hx
    obtain ⟨name, -, rfl⟩ := Option.map_eq_some_iff.mp hx
    exact ownsMembers_of_container hrule
  · cases h

end Language

namespace Found

/-- What was found is sound, and no function is found where only members can stand. -/
structure Sound (inType : Bool) (f : Found) : Prop where
  /-- the declarations in their places -/
  placed : ∀ x ∈ f.placed, x.Sound ∧ (inType = true → x.kind ≠ .function)
  /-- the members put aside -/
  detached : ∀ d ∈ f.detached, d.2.Sound ∧ d.2.kind ≠ .function

theorem sound_concat {inType : Bool} {parts : List Found} (h : ∀ f ∈ parts, f.Sound inType) :
    (concat parts).Sound inType where
  placed x hx := by
    obtain ⟨f, hf, hx⟩ := List.mem_flatMap.mp hx
    exact (h f hf).placed x hx
  detached d hd := by
    obtain ⟨f, hf, hd⟩ := List.mem_flatMap.mp hd
    exact (h f hf).detached d hd

/-- **What a node comes to is sound.** -/
theorem sound_visit (inType : Bool) (t : ParseTree) : (visit l s inType t).Sound inType := by
  induction inType, t using Language.induction_opened (l := l) (s := s) with
  | h inType t ih =>
    have hbelow : (below l s inType t).Sound (l.inTypeBelow inType t) := by
      apply sound_concat
      intro f hf
      obtain ⟨item, hitem, rfl⟩ := List.mem_map.mp hf
      exact ih item hitem
    have hown (x : Symbol) (hx : x ∈ l.declaredBy s inType t) : x.Bare inType :=
      Language.bare_of_mem_declaredBy hx
    rw [visit_eq]
    split
    · -- everything is put aside
      next owner howner =>
      obtain ⟨hopened, hkind⟩ := Language.member_of_ownerApart inType howner
      refine ⟨by simp, ?_⟩
      intro d hd
      rcases List.mem_append.mp hd with hd | hd
      · exact hbelow.detached d hd
      · obtain ⟨x, hx, rfl⟩ := List.mem_map.mp hd
        rcases List.mem_append.mp hx with hx | hx
        · obtain ⟨hsound, hfunction⟩ := hbelow.placed x hx
          rcases hopened with hopened | hflag
          · rw [below, hopened] at hx
            cases hx
          · exact ⟨hsound, hfunction hflag⟩
        · exact ⟨(hown x hx).sound, hkind x hx⟩
    · -- what is below are the members
      next hholds =>
      obtain ⟨hflag, howns⟩ := Language.owner_of_holdsMembers s inType hholds
      refine ⟨?_, hbelow.detached⟩
      intro x hx
      obtain ⟨symbol, hsymbol, rfl⟩ := List.mem_map.mp hx
      refine ⟨?_, (hown symbol hsymbol).kind⟩
      apply Symbol.Sound.withMembers (howns symbol hsymbol)
      intro m hm
      obtain ⟨hsound, hfunction⟩ := hbelow.placed m hm
      exact ⟨hsound, hfunction hflag⟩
    · -- everything stays in its place
      next howner hholds =>
      refine ⟨?_, hbelow.detached⟩
      intro x hx
      rcases List.mem_append.mp hx with hx | hx
      · obtain ⟨hsound, hfunction⟩ := hbelow.placed x hx
        refine ⟨hsound, ?_⟩
        intro hin
        exact hfunction (Language.inTypeBelow_of_inType hin t)
      · exact ⟨(hown x hx).sound, (hown x hx).kind⟩

theorem sound_ofRoot (l : Language) (s : Source) (root : ParseTree) :
    (ofRoot l s root).Sound false := by
  apply sound_concat
  intro f hf
  obtain ⟨item, -, rfl⟩ := List.mem_map.mp hf
  exact sound_visit false item

end Found

theorem sound_attach {top : List Symbol} {owner : String} {member : Symbol}
    (htop : ∀ x ∈ top, x.Sound) (hmember : member.Sound) (hkind : member.kind ≠ .function) :
    ∀ x ∈ attach top owner member, x.Sound := by
  induction top with
  | nil => simpa [attach] using hmember
  | cons symbol rest ih =>
    obtain ⟨hsymbol, hrest⟩ := List.forall_mem_cons.mp htop
    rw [attach]
    split_ifs with howner
    · rw [Bool.and_eq_true] at howner
      refine List.forall_mem_cons.mpr ⟨?_, hrest⟩
      apply Symbol.Sound.withMembers howner.2
      intro m hm
      rcases List.mem_append.mp hm with hm | hm
      · exact hsymbol.of_mem hm
      · rw [List.mem_singleton.mp hm]
        exact ⟨hmember, hkind⟩
    · exact List.forall_mem_cons.mpr ⟨hsymbol, ih hrest⟩

theorem sound_handOut {top : List Symbol} {members : List (String × Symbol)}
    (htop : ∀ x ∈ top, x.Sound) (hmembers : ∀ d ∈ members, d.2.Sound ∧ d.2.kind ≠ .function) :
    ∀ x ∈ handOut top members, x.Sound := by
  induction members generalizing top with
  | nil => exact htop
  | cons first members ih =>
    obtain ⟨⟨hfirst, hkind⟩, hrest⟩ := List.forall_mem_cons.mp hmembers
    exact ih (sound_attach htop hfirst hkind) hrest

/-- **The symbols of a file are sound.** -/
theorem sound_of_mem_declarations {l : Language} {s : Source} {root : ParseTree} {symbol : Symbol}
    (h : symbol ∈ declarations l s root) : symbol.Sound := by
  obtain ⟨hplaced, hdetached⟩ := Found.sound_ofRoot l s root
  refine Symbol.sound_of_mem_sortLevels (sound_handOut ?_ hdetached) h
  intro x hx
  exact (hplaced x hx).1

end CodeAtlas
