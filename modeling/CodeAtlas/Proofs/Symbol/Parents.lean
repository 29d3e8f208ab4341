import CodeAtlas.Proofs.Symbol.Soundness
import Mathlib

/-!
# Who gets the members that stand apart

Setup: members that stand apart from their type (`Language.membersApart`) are handed out in the end,
one after the other. A member goes to the first owner of the name at the top level. If there is
none, it goes to the top level itself, behind all others, and from then on it may be the owner of
members whose turn comes later: an associated type of an absent type is promoted just like a method.

* **`parents_sound`** — owners come before their members and may have them, no member is a function;
  who gets a member that stands apart from its type; and identifiers repeat all this.
* `not_owner_of_promoted_later` — turns count: a type that is promoted after the turn of a member is
  not its owner, though both stand at the top level in the end.
-/

namespace CodeAtlas

variable {l : Language} {s : Source}

/-! ## Turns -/

/-- The place of the first symbol of a name that may own members. -/
def ownerPlace? (top : List SymbolEntry) (owner : String) : Option Nat :=
  top.findIdx? fun e => e.name = owner && e.kind.ownsMembers

/-- The members that find no owner at the top level when their turn comes. They go to the top level,
so those whose turn comes later may find them there. -/
def promoted (top : List SymbolEntry) : List (String × Symbol) → List SymbolEntry
  | [] => []
  | (owner, member) :: rest =>
    match ownerPlace? top owner with
    | some _ => promoted top rest
    | none => member.entry :: promoted (top ++ [member.entry]) rest

/-- A symbol with one more member. -/
def Symbol.adopt (symbol member : Symbol) : Symbol :=
  symbol.withMembers (symbol.members ++ [member])

theorem ownerPlace?_cons (symbol : Symbol) (rest : List SymbolEntry) (owner : String) :
    ownerPlace? (symbol.entry :: rest) owner =
      if (symbol.name = owner && symbol.kind.ownsMembers) = true then some 0
      else (ownerPlace? rest owner).map (· + 1) :=
  List.findIdx?_cons

/-- The first owner takes a member; without one it goes behind all others. -/
theorem attach_eq (top : List Symbol) (owner : String) (member : Symbol) :
    attach top owner member =
      match ownerPlace? (top.map Symbol.entry) owner with
      | some i => top.modify i (·.adopt member)
      | none => top ++ [member] := by
  induction top with
  | nil => rfl
  | cons symbol rest ih =>
    rw [attach, List.map_cons, ownerPlace?_cons]
    split_ifs
    · rfl
    · rw [ih]
      cases ownerPlace? (rest.map Symbol.entry) owner <;> rfl

theorem map_entry_attach (top : List Symbol) (owner : String) (member : Symbol) :
    (attach top owner member).map Symbol.entry =
      match ownerPlace? (top.map Symbol.entry) owner with
      | some _ => top.map Symbol.entry
      | none => top.map Symbol.entry ++ [member.entry] := by
  rw [attach_eq]
  split
  · next i _ =>
    apply List.ext_getElem?
    intro j
    rw [List.getElem?_map, List.getElem?_map, List.getElem?_modify]
    cases top[j]? with
    | none => rfl
    | some symbol =>
      dsimp only [Option.map_eq_map, Option.map_some]
      split_ifs <;> rfl
  · simp

/-- Who stands at the top level after some members have been handed out. -/
theorem map_entry_handOut (top : List Symbol) (members : List (String × Symbol)) :
    (handOut top members).map Symbol.entry =
      top.map Symbol.entry ++ promoted (top.map Symbol.entry) members := by
  induction members generalizing top with
  | nil => simp [handOut, promoted]
  | cons first rest ih =>
    obtain ⟨owner, member⟩ := first
    rw [handOut_cons, ih, map_entry_attach, promoted]
    cases ownerPlace? (top.map Symbol.entry) owner with
    | some i => rfl
    | none => simp

/-! ## Places at the top level -/

/-- Symbols stay in their places, and may get members behind those that they have. -/
def Gains (top top' : List Symbol) : Prop :=
  ∀ (i : Nat) (symbol : Symbol), top[i]? = some symbol →
    ∃ more, top'[i]? = some (symbol.withMembers (symbol.members ++ more))

theorem Gains.refl (top : List Symbol) : Gains top top := by
  intro i symbol h
  refine ⟨[], ?_⟩
  rw [List.append_nil, Symbol.withMembers_members, h]

theorem Gains.trans {top top' top'' : List Symbol} (h : Gains top top') (h' : Gains top' top'') :
    Gains top top'' := by
  intro i symbol hsymbol
  obtain ⟨more, hmore⟩ := h i symbol hsymbol
  obtain ⟨others, hothers⟩ := h' i _ hmore
  refine ⟨more ++ others, ?_⟩
  rw [hothers, Symbol.members_withMembers, Symbol.withMembers_withMembers, List.append_assoc]

theorem gains_attach (top : List Symbol) (owner : String) (member : Symbol) :
    Gains top (attach top owner member) := by
  intro i symbol h
  rw [attach_eq]
  split
  · next j _ =>
    rw [List.getElem?_modify, h]
    by_cases hj : j = i
    · exact ⟨[member], by simp [hj, Symbol.adopt]⟩
    · exact ⟨[], by simp [hj]⟩
  · refine ⟨[], ?_⟩
    rw [List.getElem?_append_left (List.getElem?_eq_some_iff.mp h).1, h]
    simp

theorem gains_handOut (top : List Symbol) (members : List (String × Symbol)) :
    Gains top (handOut top members) := by
  induction members generalizing top with
  | nil => exact .refl top
  | cons first rest ih =>
    obtain ⟨owner, member⟩ := first
    rw [handOut_cons]
    exact (gains_attach top owner member).trans (ih _)

/-- Where a member comes to stand in a forest when `top` is at the top level as its turn comes:
below the first owner of the name there, or without an owner behind all of `top`. -/
def ComesTo (forest : List Symbol) (top : List SymbolEntry) (owner : String) (member : Symbol) :
    Prop :=
  match ownerPlace? top owner with
  | some i => ∃ host, forest[i]? = some host ∧ top[i]? = some host.entry ∧ member ∈ host.members
  | none => ∃ more, forest[top.length]? = some (member.withMembers (member.members ++ more))

theorem comesTo_attach (top : List Symbol) (owner : String) (member : Symbol) :
    ComesTo (attach top owner member) (top.map Symbol.entry) owner member := by
  rw [ComesTo, attach_eq]
  split
  · next i hi =>
    obtain ⟨hlt, -⟩ := List.findIdx?_eq_some_iff_getElem.mp hi
    rw [List.length_map] at hlt
    refine ⟨top[i].adopt member, ?_, ?_, ?_⟩
    · simp [hlt]
    · simp [hlt, Symbol.adopt]
    · exact List.mem_append_right _ List.mem_cons_self
  · exact ⟨[], by simp⟩

/-- What comes to stand somewhere stays there. -/
theorem ComesTo.gains {forest forest' : List Symbol} {top : List SymbolEntry} {owner : String}
    {member : Symbol} (h : ComesTo forest top owner member) (hgains : Gains forest forest') :
    ComesTo forest' top owner member := by
  rw [ComesTo] at h ⊢
  cases hturn : ownerPlace? top owner with
  | some i =>
    rw [hturn] at h
    obtain ⟨host, hhost, hentry, hmember⟩ := h
    obtain ⟨more, hmore⟩ := hgains i host hhost
    exact ⟨_, hmore, hentry, List.mem_append_left _ hmember⟩
  | none =>
    rw [hturn] at h
    obtain ⟨more, hmore⟩ := h
    obtain ⟨others, hothers⟩ := hgains _ _ hmore
    refine ⟨more ++ others, ?_⟩
    rw [hothers, Symbol.members_withMembers, Symbol.withMembers_withMembers, List.append_assoc]

/-- **Where each member comes to stand** when all have been handed out. -/
theorem comesTo_handOut (top : List Symbol) (before after : List (String × Symbol)) (owner : String)
    (member : Symbol) : ComesTo (handOut top (before ++ (owner, member) :: after))
      (top.map Symbol.entry ++ promoted (top.map Symbol.entry) before) owner member := by
  have hall : handOut top (before ++ (owner, member) :: after) =
      handOut (attach (handOut top before) owner member) after := by
    simp only [handOut, List.foldl_append, List.foldl_cons]
  rw [hall, ← map_entry_handOut]
  exact (comesTo_attach _ owner member).gains (gains_handOut _ after)

/-! ## Members that stand apart -/

namespace Language

/-- The members that a node puts aside, with the name of their type. -/
def putAside (l : Language) (s : Source) (inType : Bool) (t : ParseTree) : List (String × Symbol) :=
  match l.ownerApart? s t with
  | some owner => ((Found.below l s inType t).placed ++ l.declaredBy s inType t).map (owner, ·)
  | none => []

/-- The members of a file that stand apart from their type, with its name: those in implementation
blocks and the methods with receivers, in the order in which the nodes are visited. -/
def membersApart (l : Language) (s : Source) (root : ParseTree) : List (String × Symbol) :=
  (l.visitedIn s root).flatMap fun (inType, t) => l.putAside s inType t

end Language

theorem Found.detached_concat_map (items : List ParseTree) (f : ParseTree → Found) :
    (concat (items.map f)).detached = items.flatMap fun item => (f item).detached :=
  List.flatMap_map _ _ _

theorem Found.detached_visit (inType : Bool) (t : ParseTree) : (visit l s inType t).detached =
    (l.visited s inType t).flatMap fun (inType, t) => l.putAside s inType t := by
  induction inType, t using Language.induction_opened (l := l) (s := s) with
  | h inType t ih =>
    have hbelow : (below l s inType t).detached = (l.opened s t).flatMap fun item =>
        (l.visited s (l.inTypeBelow inType t) item).flatMap fun (inType, t) =>
          l.putAside s inType t := by
      rw [below, detached_concat_map]
      exact List.flatMap_congr ih
    rw [Language.visited_eq, List.flatMap_append, List.flatMap_assoc, List.flatMap_singleton,
      ← hbelow, visit_eq]
    dsimp only [Language.putAside]
    split
    · next howner => rw [howner]
    · next howner _ => rw [howner, List.append_nil]
    · next howner _ => rw [howner, List.append_nil]

theorem detached_ofRoot (l : Language) (s : Source) (root : ParseTree) :
    (Found.ofRoot l s root).detached = l.membersApart s root := by
  rw [Found.ofRoot, Found.detached_concat_map, Language.membersApart, Language.visitedIn,
    List.flatMap_assoc]
  exact List.flatMap_congr fun item _ => Found.detached_visit false item

namespace Symbol

theorem ne_none_of_mem_flattenUnder {owner : String} {symbol : Symbol}
    {found : Symbol × Option String} (h : found ∈ flattenUnder (some owner) symbol) :
    found.2 ≠ none := by
  induction symbol using induction_members generalizing owner with
  | h symbol ih =>
    cases symbol with
    | mk name kind line endLine signature members =>
      rw [flattenUnder] at h
      rcases List.mem_cons.mp h with rfl | h
      · exact Option.some_ne_none _
      · obtain ⟨m, hm, h⟩ := List.mem_flatMap.mp h
        exact ih m hm h

/-- The symbols that are listed without an owner are those of the top level. -/
theorem flatten_filter_isNone (symbols : List Symbol) :
    ((flatten symbols).filter (·.2.isNone)).map Prod.fst = symbols := by
  have hbelow (owner : String) (members : List Symbol) :
      (members.flatMap (flattenUnder (some owner))).filter (·.2.isNone) = [] := by
    rw [List.filter_eq_nil_iff]
    intro found hfound
    obtain ⟨m, -, hfound⟩ := List.mem_flatMap.mp hfound
    simpa using ne_none_of_mem_flattenUnder hfound
  induction symbols with
  | nil => rfl
  | cons symbol symbols ih =>
    cases symbol with
    | mk name kind line endLine signature members =>
      rw [flatten, List.flatMap_cons, flattenUnder, List.filter_append, List.filter_cons, hbelow]
      rw [flatten] at ih
      simp [ih]

end Symbol

/-- **Parents are sound.** A symbol that is listed with an owner is no function and comes behind
that owner, which is a type; the symbols without an owner are those of the top level. A member that
stands apart from its type goes to the first owner of the name, first among the symbols declared at
the top level and then among the members promoted before its turn; without any it is promoted
itself. The identifiers of a file go along with the entries of its document and have the owners that
the symbols are listed with. -/
theorem parents_sound (l : Language) (source : String) (root : ParseTree) :
    let a := Analysis.ofTree l source root
    let found := Found.ofRoot l (Source.ofText source) root
    (∀ before symbol owner after,
      Symbol.flatten a.symbols = before ++ (symbol, some owner) :: after →
        symbol.kind ≠ .function ∧
          ∃ p ∈ before, p.1.name = owner ∧ p.1.kind.ownsMembers = true) ∧
      ((Symbol.flatten a.symbols).filter (·.2.isNone)).map Prod.fst = a.symbols ∧
      Symbol.Arranged found.gathered a.symbols ∧
      (∀ before owner member after,
        l.membersApart (Source.ofText source) root = before ++ (owner, member) :: after →
          ComesTo found.gathered (found.placed.map Symbol.entry ++
            promoted (found.placed.map Symbol.entry) before) owner member) ∧
      ∀ path maxChars,
        (identifiersOf path a).map Identifier.entry =
            (Document.ofAnalysis path a maxChars).entries ∧
          (identifiersOf path a).map (·.entry.name) =
            (Document.ofAnalysis path a maxChars).symbols ∧
          (identifiersOf path a).map Identifier.owner =
            (Symbol.flatten a.symbols).map Prod.snd := by
  intro a found
  refine ⟨?_, Symbol.flatten_filter_isNone _, Symbol.arranged_sortLevels _, ?_, ?_⟩
  · intro before symbol owner after hflat
    exact Symbol.owner_before_of_flatten (fun x hx => sound_of_mem_declarations hx) hflat
  · intro before owner member after hapart
    rw [← detached_ofRoot] at hapart
    rw [Found.gathered, hapart]
    exact comesTo_handOut found.placed before after owner member
  · intro path maxChars
    refine ⟨?_, ?_, ?_⟩ <;> simp [identifiersOf, Document.ofAnalysis, Identifier.ofEntry]

/-! ## A type that is promoted too late -/

/-- A method of a type that is not declared, and then an associated type of the same name. -/
def lateText : String :=
  "impl Foo \x7b fn f() \x7b\x7d \x7d\nimpl Tr for Bar \x7b type Foo = u8; \x7d\n"

/-- Its tree, without the tokens. -/
def lateTree : ParseTree :=
  let node (kind : String) (field : Option String) (first last row : Nat)
      (children : List ParseTree) :=
    ParseTree.node kind true field ⟨first, last, row, row⟩ children
  .node "source_file" true none ⟨0, 58, 0, 2⟩
    [node "impl_item" none 0 22 0
      [node "type_identifier" (some "type") 5 8 0 [],
        node "declaration_list" (some "body") 9 22 0
          [node "function_item" none 11 20 0
            [node "identifier" (some "name") 14 15 0 [],
              node "parameters" (some "parameters") 15 17 0 [],
              node "block" (some "body") 18 20 0 []]]],
      node "impl_item" none 23 57 1
        [node "type_identifier" (some "trait") 28 30 1 [],
          node "type_identifier" (some "type") 35 38 1 [],
          node "declaration_list" (some "body") 39 57 1
            [node "type_item" none 41 55 1
              [node "type_identifier" (some "name") 46 49 1 [],
                node "primitive_type" (some "type") 52 54 1 []]]]]

/-- Its symbols: the method, and the type behind it. -/
def lateMethod : Symbol := .mk "f" .method 1 1 "fn f()" []

def lateType : Symbol := .mk "Foo" .typeName 2 2 "type Foo = u8;" []

theorem symbols_late :
    (Analysis.ofTree .rust lateText lateTree).symbols = [lateMethod, lateType] := by
  cbv

theorem membersApart_late : Language.rust.membersApart (Source.ofText lateText) lateTree =
    [("Foo", lateMethod), ("Bar", lateType)] := by
  cbv

/-- **Turns count.** In the end a type of the right name stands at the top level, but the method
whose turn came before does not belong to it. -/
theorem not_owner_of_promoted_later :
    ¬∀ (l : Language) (source : String) (root : ParseTree) (owner : String) (member : Symbol),
      (owner, member) ∈ l.membersApart (Source.ofText source) root →
        (∃ symbol ∈ (Analysis.ofTree l source root).symbols,
          symbol.name = owner ∧ symbol.kind.ownsMembers = true) →
        ∃ symbol ∈ (Analysis.ofTree l source root).symbols,
          symbol.name = owner ∧ member.entry ∈ symbol.members.map Symbol.entry := by
  intro h
  have hmember := h .rust lateText lateTree "Foo" lateMethod
  rw [membersApart_late, symbols_late] at hmember
  obtain ⟨symbol, hsymbol, -, hentry⟩ := hmember (by simp) ⟨lateType, by simp, rfl, rfl⟩
  -- neither of the two symbols has members
  have hnone : symbol.members = [] := by
    rcases List.mem_pair.mp hsymbol with rfl | rfl
    · rfl
    · rfl
  rw [hnone] at hentry
  cases hentry

end CodeAtlas
