import CodeAtlas.Proofs.Symbol.Levels

/-!
# Every declaration is kept once

Setup: a table says for each kind of nodes how it declares something. `Language.visited` lists the
nodes that count, each behind the nodes below it, and `Language.declaredBy` says what one of them
declares by itself. This is the plain reading of the table: it knows of no owners, no members that
are put aside, no levels.

The symbols of a file are put together in a more roundabout way. Members go below their owners,
those that stand apart from their type are put aside and attached in the end, and all levels are
sorted. **`declarations_conserve`** says that the detours neither lose nor repeat anything, and what
the order of the levels is.
-/

namespace CodeAtlas

namespace ParseTree

/-- A node and all nodes below it. -/
def nodes : ParseTree → List ParseTree
  | node kind named field span children =>
    node kind named field span children :: children.flatMap nodes

theorem nodes_eq (t : ParseTree) : t.nodes = t :: t.children.flatMap nodes := by
  cases t
  rw [nodes, children]

end ParseTree

theorem subperm_flatMap {α β : Type} {xs : List α} {f g : α → List β}
    (h : ∀ x ∈ xs, (f x).Subperm (g x)) : (xs.flatMap f).Subperm (xs.flatMap g) := by
  induction xs with
  | nil => exact .refl _
  | cons x xs ih =>
    obtain ⟨hx, hrest⟩ := List.forall_mem_cons.mp h
    exact hx.append (ih hrest)

variable {l : Language} {s : Source}

/-! ## Declarations by themselves -/

/-- A declaration by itself: nothing belongs to it yet, and in the body of a type it is no function.
-/
structure Symbol.Bare (inType : Bool) (symbol : Symbol) : Prop where
  /-- nothing belongs to it -/
  members : symbol.members = []
  /-- functions inside a type are methods -/
  kind : inType = true → symbol.kind ≠ .function

variable {inType : Bool} {t : ParseTree} {symbol : Symbol}

theorem Symbol.Bare.withSignature (h : symbol.Bare inType) (signature : String) :
    (symbol.withSignature signature).Bare inType :=
  ⟨h.members, h.kind⟩

theorem bare_symbolAt {kind : SymbolKind} (h : inType = true → kind ≠ .function) {name : String} :
    (symbolAt s name kind t).Bare inType :=
  ⟨rfl, h⟩

theorem placedKind_ne_function (kind : SymbolKind) (h : inType = true) :
    placedKind inType kind ≠ .function := by
  subst h
  cases kind <;> decide

theorem bare_of_mem_scriptBindings (h : symbol ∈ scriptBindings s inType t) :
    symbol.Bare inType := by
  obtain ⟨declarator, -, h⟩ := List.mem_filterMap.mp h
  split_ifs at h
  split at h
  · cases h
  · split_ifs at h
    obtain rfl := Option.some.inj h
    exact (bare_symbolAt (placedKind_ne_function _)).withSignature _

theorem bare_of_mem_pythonBindings (h : symbol ∈ pythonBindings s t) : symbol.Bare inType := by
  obtain ⟨assignment, -, h⟩ := List.mem_filterMap.mp h
  split_ifs at h
  split at h
  · cases h
  · split_ifs at h
    obtain rfl := Option.some.inj h
    apply bare_symbolAt
    intro _
    split_ifs <;> simp

theorem bare_of_mem_goBindings (h : symbol ∈ goBindings s t) : symbol.Bare inType := by
  obtain ⟨spec, -, h⟩ := List.mem_filterMap.mp h
  split_ifs at h
  all_goals
    obtain ⟨name, -, rfl⟩ := Option.map_eq_some_iff.mp h
    exact bare_symbolAt (by simp)

theorem bare_of_mem_bindingsOf (h : symbol ∈ bindingsOf l s inType t) : symbol.Bare inType := by
  cases l with
  | typescript => exact bare_of_mem_scriptBindings h
  | tsx => exact bare_of_mem_scriptBindings h
  | javascript => exact bare_of_mem_scriptBindings h
  | python => exact bare_of_mem_pythonBindings h
  | go => exact bare_of_mem_goBindings h
  | rust => cases h

theorem bare_of_mem_goTypes (h : symbol ∈ goTypes s t) : symbol.Bare inType := by
  obtain ⟨spec, -, h⟩ := List.mem_filterMap.mp h
  split_ifs at h
  obtain ⟨name, -, rfl⟩ := Option.map_eq_some_iff.mp h
  have hbare :
      (symbolAt s name (goTypeKind ((spec.child? "type").map (·.kind))) spec).Bare inType := by
    apply bare_symbolAt
    intro _
    unfold goTypeKind
    split_ifs <;> simp
  dsimp only
  split_ifs
  · exact hbare
  · exact hbare.withSignature _

theorem bare_of_mem_exportedNames (h : symbol ∈ exportedNames s t) : symbol.Bare inType := by
  obtain ⟨clause, -, h⟩ := List.mem_flatMap.mp h
  split_ifs at h
  · cases h
  · obtain ⟨spec, -, h⟩ := List.mem_filterMap.mp h
    split_ifs at h
    split at h
    · cases h
    · obtain rfl := Option.some.inj h
      exact (bare_symbolAt (by simp)).withSignature _

/-- What holds members in its body may own them. -/
theorem Language.ownsMembers_of_container {word : String} {kind : SymbolKind}
    (h : l.ruleFor word = some (.container kind)) : kind.ownsMembers = true := by
  have hrules (l : Language) : ∀ r ∈ l.rules,
      (match r.2 with | .container kind => kind.ownsMembers | _ => true) = true := by
    cases l <;> decide
  obtain ⟨r, hr, hrule⟩ := Option.map_eq_some_iff.mp h
  have howns := hrules l r (List.mem_of_find?_eq_some hr)
  rwa [hrule] at howns

namespace Language

/-! ## The nodes that count -/

/-- Whether a node holds its members in its body. -/
def holdsMembers (l : Language) (t : ParseTree) : Bool :=
  match l.ruleFor t.kind with
  | some (.container _) => true
  | _ => false

/-- The type that the declarations of a node belong to when that type is declared elsewhere. -/
def ownerApart? (l : Language) (s : Source) (t : ParseTree) : Option String :=
  match l.ruleFor t.kind with
  | some .implementation => (t.child? "type").map fun type => bareTypeName (s.textOf type)
  | some .receiverMethod => receiverType? s t
  | _ => none

/-- The nodes below a node that count. A type without a name and members of no type count for
nothing. -/
def opened (l : Language) (s : Source) (t : ParseTree) : List ParseTree :=
  match l.ruleFor t.kind with
  | some (.container _) => if (s.fieldText? t "name").isSome then t.bodyItems else []
  | some .implementation => if (t.child? "type").isSome then t.bodyItems else []
  | some .wrapper => t.items
  | some .inside => t.bodyItems
  | _ => []

/-- Whether the nodes below a node stand in the body of a type. -/
def inTypeBelow (l : Language) (inType : Bool) (t : ParseTree) : Bool :=
  match l.ruleFor t.kind with
  | some (.container _) => true
  | some .implementation => true
  | _ => inType

/-- What a node declares by itself. -/
def declaredBy (l : Language) (s : Source) (inType : Bool) (t : ParseTree) : List Symbol :=
  match l.ruleFor t.kind with
  | some (.leaf kind) =>
    ((s.fieldText? t "name").map fun name => symbolAt s name (placedKind inType kind) t).toList
  | some (.container kind) =>
    ((s.fieldText? t "name").map fun name => symbolAt s name kind t).toList
  | some .receiverMethod =>
    ((s.fieldText? t "name").map fun name => symbolAt s name .method t).toList
  | some .wrapper => if l = .python then [] else exportedNames s t
  | some .bindings => bindingsOf l s inType t
  | some .typeSpecs => goTypes s t
  | _ => []

theorem sizeOf_lt_of_mem_opened {t item : ParseTree} (h : item ∈ l.opened s t) :
    sizeOf item < sizeOf t := by
  unfold opened at h
  split at h
  · split_ifs at h
    · exact ParseTree.sizeOf_lt_of_mem_bodyItems h
    · cases h
  · split_ifs at h
    · exact ParseTree.sizeOf_lt_of_mem_bodyItems h
    · cases h
  · exact ParseTree.sizeOf_lt_of_mem_items h
  · exact ParseTree.sizeOf_lt_of_mem_bodyItems h
  · cases h

/-- The nodes that count from a node on, each behind those below it, and whether they stand in the
body of a type. -/
def visited (l : Language) (s : Source) (inType : Bool) (t : ParseTree) : List (Bool × ParseTree) :=
  ((l.opened s t).attach.flatMap fun ⟨item, _⟩ => visited l s (l.inTypeBelow inType t) item) ++
    [(inType, t)]
termination_by sizeOf t
decreasing_by
  next h => exact sizeOf_lt_of_mem_opened h

/-- The nodes that count in a file. -/
def visitedIn (l : Language) (s : Source) (root : ParseTree) : List (Bool × ParseTree) :=
  root.items.flatMap (l.visited s false)

theorem visited_eq (inType : Bool) (t : ParseTree) : l.visited s inType t =
    (l.opened s t).flatMap (l.visited s (l.inTypeBelow inType t)) ++ [(inType, t)] := by
  rw [visited, List.flatMap_subtype (g := l.visited s (l.inTypeBelow inType t)),
    List.unattach_attach]
  intro item h
  rfl

/-- What holds of a node once it holds of the nodes below it that count holds of all nodes. -/
theorem induction_opened {p : Bool → ParseTree → Prop}
    (h : ∀ inType t, (∀ item ∈ l.opened s t, p (l.inTypeBelow inType t) item) → p inType t)
    (inType : Bool) (t : ParseTree) : p inType t := by
  induction hn : sizeOf t using Nat.strong_induction_on generalizing inType t with
  | _ n ih =>
    subst hn
    apply h
    intro item hitem
    exact ih (sizeOf item) (sizeOf_lt_of_mem_opened hitem) _ item rfl

theorem nodes_bodyItems (t : ParseTree) :
    (t.bodyItems.flatMap ParseTree.nodes).Sublist (t.children.flatMap ParseTree.nodes) := by
  unfold ParseTree.bodyItems
  split
  · next body hbody =>
    have hitems : (body.items.flatMap ParseTree.nodes).Sublist body.nodes := by
      rw [ParseTree.nodes_eq body]
      exact (List.filter_sublist.flatMap _).cons _
    have hone :=
      (List.singleton_sublist.mpr (List.mem_of_find?_eq_some hbody)).flatMap ParseTree.nodes
    rw [List.flatMap_singleton] at hone
    exact hitems.trans hone
  · exact List.nil_sublist _

/-- The nodes that count below a node lie apart from each other. -/
theorem nodes_opened (t : ParseTree) :
    ((l.opened s t).flatMap ParseTree.nodes).Sublist (t.children.flatMap ParseTree.nodes) := by
  unfold opened
  split
  · split_ifs
    · exact nodes_bodyItems t
    · exact List.nil_sublist _
  · split_ifs
    · exact nodes_bodyItems t
    · exact List.nil_sublist _
  · exact List.filter_sublist.flatMap _
  · exact nodes_bodyItems t
  · exact List.nil_sublist _

/-- **No node is visited twice.** -/
theorem visited_subperm (inType : Bool) (t : ParseTree) :
    ((l.visited s inType t).map Prod.snd).Subperm t.nodes := by
  induction inType, t using induction_opened (l := l) (s := s) with
  | h inType t ih =>
    rw [visited_eq, List.map_append, List.map_flatMap, ParseTree.nodes_eq t]
    refine (List.perm_append_singleton _ _).subperm.trans ((List.subperm_cons t).mpr ?_)
    exact (subperm_flatMap ih).trans (nodes_opened t).subperm

/-- The plain reading of the table: what each of the nodes that count declares. -/
def declared (l : Language) (s : Source) (root : ParseTree) : List Symbol :=
  (l.visitedIn s root).flatMap fun (inType, t) => l.declaredBy s inType t

/-- A node that holds members declares their owner; a nameless one holds none that count. -/
theorem declaredBy_of_holdsMembers (inType : Bool) {t : ParseTree} (h : l.holdsMembers t = true) :
    (∃ symbol, l.declaredBy s inType t = [symbol]) ∨
      l.declaredBy s inType t = [] ∧ l.opened s t = [] := by
  unfold holdsMembers at h
  split at h
  · next kind hrule =>
    cases hname : s.fieldText? t "name" with
    | none =>
      right
      simp [declaredBy, opened, hrule, hname]
    | some name =>
      left
      exact ⟨symbolAt s name kind t, by simp [declaredBy, hrule, hname]⟩
  · cases h

/-- A node declares bare symbols. -/
theorem bare_of_mem_declaredBy {inType : Bool} {t : ParseTree} {symbol : Symbol}
    (h : symbol ∈ l.declaredBy s inType t) : symbol.Bare inType := by
  unfold declaredBy at h
  split at h
  · next kind _ =>
    obtain ⟨name, -, rfl⟩ := Option.map_eq_some_iff.mp (Option.mem_toList.mp h)
    exact bare_symbolAt (placedKind_ne_function kind)
  · next kind hrule =>
    obtain ⟨name, -, rfl⟩ := Option.map_eq_some_iff.mp (Option.mem_toList.mp h)
    exact bare_symbolAt fun _ hkind => by
      have howns := ownsMembers_of_container hrule
      rw [hkind] at howns
      cases howns
  · obtain ⟨name, -, rfl⟩ := Option.map_eq_some_iff.mp (Option.mem_toList.mp h)
    exact bare_symbolAt (by simp)
  · split_ifs at h
    · cases h
    · exact bare_of_mem_exportedNames h
  · exact bare_of_mem_bindingsOf h
  · exact bare_of_mem_goTypes h
  · cases h

end Language

namespace Found

/-! ## How a node puts its declarations together -/

/-- What the nodes below a node declare. -/
def below (l : Language) (s : Source) (inType : Bool) (t : ParseTree) : Found :=
  concat ((l.opened s t).map (visit l s (l.inTypeBelow inType t)))

/-- **How a node puts together** what it declares by itself and what the nodes below it declare.
There are three ways: it puts all of it aside for the type that it belongs to, it takes what is
below for its members, or it leaves everything in its place. -/
theorem visit_eq (inType : Bool) (t : ParseTree) : visit l s inType t =
    match l.ownerApart? s t, l.holdsMembers t with
    | some owner, _ =>
      ⟨[], (below l s inType t).detached ++
        ((below l s inType t).placed ++ l.declaredBy s inType t).map (owner, ·)⟩
    | none, true =>
      ⟨(l.declaredBy s inType t).map (·.withMembers (below l s inType t).placed),
        (below l s inType t).detached⟩
    | none, false =>
      ⟨(below l s inType t).placed ++ l.declaredBy s inType t, (below l s inType t).detached⟩ := by
  have hattach (items : List ParseTree) (f : ParseTree → Found) :
      items.attach.map (fun ⟨item, _⟩ => f item) = items.map f := by
    rw [List.map_subtype (g := f) (by intro _ _; rfl), List.unattach_attach]
  rw [visit]
  simp only [hattach, Language.ownerApart?, Language.holdsMembers, Language.declaredBy, below,
    Language.opened, Language.inTypeBelow]
  cases hrule : l.ruleFor t.kind with
  | none => rfl
  | some rule =>
    cases rule with
    | leaf kind => cases s.fieldText? t "name" <;> rfl
    | container kind => cases s.fieldText? t "name" <;> rfl
    | implementation => cases t.child? "type" <;> simp [detach, concat, nothing]
    | receiverMethod =>
      cases s.fieldText? t "name" <;> cases receiverType? s t <;>
        simp [detach, concat, one, nothing]
    | wrapper => split_ifs <;> simp [concat, append]
    | bindings => rfl
    | typeSpecs => rfl
    | inside => simp [concat]

/-! ## What a node comes to -/

/-- The declarations in their places and those put aside, each by itself. -/
def entries (f : Found) : List SymbolEntry :=
  Symbol.entries (f.placed ++ f.detached.map Prod.snd)

theorem entries_append (f g : Found) : (f.append g).entries.Perm (f.entries ++ g.entries) := by
  rw [List.perm_iff_count]
  intro e
  simp only [entries, append, List.map_append, Symbol.entries_append, List.count_append]
  omega

theorem entries_concat (parts : List Found) :
    (concat parts).entries.Perm (parts.flatMap entries) := by
  induction parts with
  | nil => exact .refl _
  | cons part parts ih => exact (entries_append part (concat parts)).trans (ih.append_left _)

/-- A node comes to what it declares by itself and what the nodes below it come to. -/
theorem entries_visit_eq (inType : Bool) (t : ParseTree) : (visit l s inType t).entries.Perm
    ((below l s inType t).entries ++ (l.declaredBy s inType t).map Symbol.entry) := by
  have hown :
      Symbol.entries (l.declaredBy s inType t) = (l.declaredBy s inType t).map Symbol.entry :=
    Symbol.entries_of_members_eq_nil fun symbol h => (Language.bare_of_mem_declaredBy h).members
  rw [visit_eq, ← hown, List.perm_iff_count]
  intro e
  split
  · simp only [entries, List.nil_append, List.map_append, List.map_map, Function.comp_def,
      List.map_id', Symbol.entries_append, List.count_append]
    omega
  · next hholds =>
    rcases Language.declaredBy_of_holdsMembers (s := s) inType hholds with
      ⟨symbol, hsymbol⟩ | ⟨hnone, hopened⟩
    · have hmembers : Symbol.entries [symbol.withMembers (below l s inType t).placed] =
          symbol.entry :: Symbol.entries (below l s inType t).placed := by
        rw [Symbol.entries_cons, Symbol.entries_nil, List.append_nil, Symbol.entry_withMembers,
          Symbol.members_withMembers]
      rw [hsymbol] at hown ⊢
      simp only [entries, Symbol.entries_append, List.map_cons, List.map_nil, hmembers, hown,
        List.count_append, List.count_cons, List.count_nil]
      omega
    · have hbelow : below l s inType t = nothing := by rw [below, hopened]; rfl
      rw [hbelow, hnone]
      rfl
  · simp only [entries, Symbol.entries_append, List.count_append]
    omega

/-- **A node comes to what the nodes that count declare.** -/
theorem entries_visit (inType : Bool) (t : ParseTree) : (visit l s inType t).entries.Perm
    ((l.visited s inType t).flatMap fun (inType, t) =>
      (l.declaredBy s inType t).map Symbol.entry) := by
  induction inType, t using Language.induction_opened (l := l) (s := s) with
  | h inType t ih =>
    rw [Language.visited_eq, List.flatMap_append, List.flatMap_singleton, List.flatMap_assoc]
    refine (entries_visit_eq inType t).trans (List.Perm.append_right _ ?_)
    refine (entries_concat _).trans ?_
    rw [List.flatMap_map]
    exact List.Perm.flatMap_left _ ih

end Found

/-! ## Attaching members -/

/-- Attaching a member loses nothing: its owner takes it, or it stands behind all others. -/
theorem entries_attach (top : List Symbol) (owner : String) (member : Symbol) :
    (Symbol.entries (attach top owner member)).Perm (Symbol.entries (top ++ [member])) := by
  induction top with
  | nil => exact .refl _
  | cons symbol rest ih =>
    rw [attach, List.cons_append, Symbol.entries_cons symbol]
    split_ifs
    · rw [Symbol.entries_cons, Symbol.entry_withMembers, Symbol.members_withMembers,
        Symbol.entries_append, Symbol.entries_append, List.append_assoc]
      exact (List.perm_append_comm.append_left _).cons _
    · rw [Symbol.entries_cons]
      exact (ih.append_left _).cons _

/-- Handing members out to the symbols at the top level, one after the other. -/
def handOut (top : List Symbol) (members : List (String × Symbol)) : List Symbol :=
  members.foldl (fun top (owner, member) => attach top owner member) top

theorem handOut_cons (top : List Symbol) (owner : String) (member : Symbol)
    (members : List (String × Symbol)) :
    handOut top ((owner, member) :: members) = handOut (attach top owner member) members := rfl

/-- **Handing members out loses nothing.** -/
theorem entries_handOut (top : List Symbol) (members : List (String × Symbol)) :
    (Symbol.entries (handOut top members)).Perm (Symbol.entries (top ++ members.map Prod.snd)) := by
  induction members generalizing top with
  | nil =>
    rw [List.map_nil, List.append_nil]
    exact .refl _
  | cons first members ih =>
    obtain ⟨owner, member⟩ := first
    rw [handOut_cons, List.map_cons, ← List.singleton_append, ← List.append_assoc]
    refine (ih _).trans ?_
    rw [Symbol.entries_append, Symbol.entries_append (top ++ [member])]
    exact (entries_attach top owner member).append_right _

/-- The symbols of a file before their levels are sorted. -/
def Found.gathered (f : Found) : List Symbol :=
  handOut f.placed f.detached

theorem declarations_eq (l : Language) (s : Source) (root : ParseTree) :
    declarations l s root = Symbol.sortLevels (Found.ofRoot l s root).gathered := rfl

/-- The symbols of a file are what its nodes come to. -/
theorem entries_declarations (l : Language) (s : Source) (root : ParseTree) :
    (Symbol.entries (declarations l s root)).Perm (Found.ofRoot l s root).entries := by
  rw [declarations_eq]
  exact (Symbol.entries_sortLevels _).trans (entries_handOut _ _)

/-- **Declarations are conserved.** The symbols of a file with all that belongs to them, each taken
by itself, are what the nodes that count declare, each as often as it is declared, and no node
counts twice. On every level the symbols are in the order of their lines, those of one line in the
order in which they were found. -/
theorem declarations_conserve (l : Language) (s : Source) (root : ParseTree) :
    (Symbol.entries (declarations l s root)).Perm ((l.declared s root).map Symbol.entry) ∧
      ((l.visitedIn s root).map Prod.snd).Subperm (root.children.flatMap ParseTree.nodes) ∧
      Symbol.Arranged (Found.ofRoot l s root).gathered (declarations l s root) := by
  refine ⟨?_, ?_, Symbol.arranged_sortLevels _⟩
  · refine (entries_declarations l s root).trans ?_
    rw [Language.declared, Language.visitedIn, List.flatMap_assoc, List.map_flatMap]
    refine (Found.entries_concat _).trans ?_
    rw [List.flatMap_map]
    apply List.Perm.flatMap_left
    intro item _
    rw [List.map_flatMap]
    exact Found.entries_visit false item
  · rw [Language.visitedIn, List.map_flatMap]
    have hitems := (List.filter_sublist (p := ParseTree.isNamed) (l := root.children)).flatMap
      ParseTree.nodes
    refine (subperm_flatMap ?_).trans hitems.subperm
    intro item _
    exact Language.visited_subperm false item

end CodeAtlas
