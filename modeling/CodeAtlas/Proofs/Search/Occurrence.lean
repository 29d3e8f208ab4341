import CodeAtlas.Search.Occurrence
import CodeAtlas.Proofs.Path.Names
import Mathlib

/-!
# Where a line mentions a name

A name is looked for between word boundaries, and a dollar sign is not part of a word. At an end of
the name where a letter, a digit or an underscore stands, none of these may touch it from outside;
at an end where a dollar sign stands, one of them has to (`FoundIn`). So a line mentions a name
exactly if the name stands in it as an identifier of its own (`StandsIn`), as long as no dollar sign
is involved; a name that begins with one is not found where it is used (**`mentions_iff_foundIn`**).
-/

namespace CodeAtlas

open CodeAtlas.Text CodeAtlas.Unicode

/-! ## Identifiers in a line -/

/-- A letter, a digit or an underscore. -/
def isPlainChar (c : Char) : Bool :=
  c.isAlphanum || c == '_'

/-- A character that an identifier of a script may have: a plain one or a dollar sign. -/
def isNameChar (c : Char) : Bool :=
  isPlainChar c || c == '$'

/-- An opening parenthesis follows, behind blanks if there are any. -/
def Opens (after : List Char) : Prop :=
  ∃ blanks rest, after = blanks ++ '(' :: rest ∧ ∀ c ∈ blanks, isBlank c = true

/-- The name stands in the line as an identifier of its own, and is called if it can be. -/
def StandsIn (name line : List Char) (callable : Bool) : Prop :=
  ∃ before after, line = before ++ name ++ after ∧ (∀ c ∈ before.getLast?, isNameChar c = false) ∧
    (∀ c ∈ after.head?, isNameChar c = false) ∧ (callable = true → Opens after)

/-- The character outside is plain exactly if the name has a dollar sign at that end. -/
def Edge (outside inside : Option Char) : Prop :=
  (∃ c ∈ outside, isPlainChar c = true) ↔ inside = some '$'

/-- The name stands in the line between edges of words; the end of a name that is called is the
parenthesis. -/
def FoundIn (name line : List Char) (callable : Bool) : Prop :=
  ∃ before after, line = before ++ name ++ after ∧ Edge before.getLast? name.head? ∧
    if callable then Opens after else Edge after.head? name.getLast?

/-- No dollar sign stands at an end of the name that is looked at, nor next to that end in the line.
-/
structure NoDollar (name line : List Char) (callable : Bool) : Prop where
  head : name.head? ≠ some '$'
  before : ∀ before after, line = before ++ name ++ after → before.getLast? ≠ some '$'
  last : callable = false → name.getLast? ≠ some '$'
  after : callable = false → ∀ before after, line = before ++ name ++ after → after.head? ≠ some '$'

/-! ## The search -/

section Search

variable {name : List Char} {callable : Bool}

theorem opens_iff {after : List Char} : Opens after ↔
    (after.dropWhile isBlank).head? = some '(' := by
  constructor
  · rintro ⟨blanks, rest, rfl, hblanks⟩
    rw [List.dropWhile_append_of_pos hblanks]
    rfl
  · intro h
    obtain ⟨rest, hrest⟩ := List.head?_eq_some_iff.1 h
    refine ⟨after.takeWhile isBlank, rest, ?_, fun c hc => List.mem_takeWhile_imp hc⟩
    rw [← hrest, List.takeWhile_append_dropWhile]

theorem getLast?_cons_or (c : Char) (before : List Char) (touching : Option Char) :
    (c :: before).getLast?.or touching = before.getLast?.or (some c) := by
  rw [List.getLast?_cons]
  cases before.getLast? <;> rfl

/-- The search tries every place of the line. -/
theorem mentionsFrom_iff {cs : List Char} {touching : Option Char} :
    mentionsFrom name callable touching cs = true ↔
      ∃ before rest, cs = before ++ rest ∧
        mentionsHere name callable (before.getLast?.or touching) rest = true := by
  induction cs generalizing touching with
  | nil =>
    constructor
    · intro h
      exact ⟨[], [], rfl, h⟩
    · rintro ⟨before, rest, hcs, h⟩
      obtain ⟨rfl, rfl⟩ := List.append_eq_nil_iff.1 hcs.symm
      exact h
  | cons c cs ih =>
    rw [mentionsFrom, Bool.or_eq_true, ih]
    constructor
    · rintro (h | ⟨before, rest, rfl, h⟩)
      · exact ⟨[], c :: cs, rfl, h⟩
      · refine ⟨c :: before, rest, rfl, ?_⟩
        rw [getLast?_cons_or]
        exact h
    · rintro ⟨before, rest, hcs, h⟩
      cases before with
      | nil =>
        rw [List.nil_append] at hcs
        subst hcs
        exact .inl h
      | cons d before =>
        obtain ⟨rfl, rfl⟩ := List.cons.inj hcs
        rw [getLast?_cons_or] at h
        exact .inr ⟨before, rest, rfl, h⟩

/-- At a place, the name has to stand there and both ends have to fit. -/
theorem mentionsHere_iff (hne : name ≠ []) {touching : Option Char} {cs : List Char} :
    mentionsHere name callable touching cs = true ↔
      ∃ after, cs = name ++ after ∧ isBoundary touching name.head? = true ∧
        mentionEnds callable name.getLast? after = true := by
  have hhead : ∀ after, (name ++ after).head? = name.head? :=
    fun after => List.head?_append_of_ne_nil name hne
  have hlast : name.getLast?.or touching = name.getLast? := by
    rw [List.getLast?_eq_some_getLast hne, Option.some_or]
  rw [mentionsHere, Bool.and_eq_true]
  cases hdrop : dropLead? name cs with
  | none =>
    constructor
    · rintro ⟨_, h⟩
      cases h
    · rintro ⟨after, rfl, _⟩
      rw [Path.dropLead?_append] at hdrop
      cases hdrop
  | some rest =>
    rw [Path.dropLead?_eq_some_iff] at hdrop
    subst hdrop
    simp [hhead, hlast]

end Search

/-! ## Edges of words -/

section Edges

variable {outside inside : Option Char}

theorem isBoundary_comm : isBoundary outside inside = isBoundary inside outside := by
  simp only [isBoundary, bne_comm]

/-- Between an ASCII character, or an end of the line, and the end of a name, a word starts or ends
where the two fit. -/
theorem isBoundary_iff_edge (houtside : ∀ c ∈ outside, c.toNat < 128)
    (hinside : ∃ c ∈ inside, isWordChar c = true ∨ c = '$') :
    isBoundary outside inside = true ↔ Edge outside inside := by
  have hword : outside.any isWordChar = true ↔ ∃ c ∈ outside, isPlainChar c = true := by
    rw [Option.any_eq_true]
    refine exists_congr fun c => and_congr_right fun hc => ?_
    rw [isWordChar_of_ascii (houtside c hc), isPlainChar]
  obtain ⟨c, hc, hname⟩ := hinside
  rw [Option.mem_def] at hc
  subst hc
  have hdollar : isWordChar c = true ↔ ¬ some c = some '$' := by
    rw [Option.some_inj]
    constructor
    · rintro h rfl
      revert h
      decide
    · exact hname.resolve_right
  rw [isBoundary, Edge, ← hword, Option.any_some, bne_iff_ne, ne_eq, Bool.eq_iff_iff, hdollar]
  tauto

theorem not_isNameChar_of_isBlank {c : Char} (h : isBlank c = true) : isNameChar c = false := by
  rw [Bool.eq_false_iff]
  intro hname
  simp only [isNameChar, isPlainChar, Bool.or_eq_true, beq_iff_eq, ← Char.toNat_inj] at hname
  simp only [isBlank, Bool.or_eq_true, Bool.and_eq_true, decide_eq_true_eq, beq_iff_eq] at h
  simp only [Char.isAlphanum, Char.isAlpha, Char.isUpper, Char.isLower, Char.isDigit,
    Bool.or_eq_true,
    Bool.and_eq_true, decide_eq_true_eq, ge_iff_le, UInt32.le_iff_toNat_le] at hname
  have hcode : (((65 ≤ c.toNat ∧ c.toNat ≤ 90 ∨ 97 ≤ c.toNat ∧ c.toNat ≤ 122) ∨
      48 ≤ c.toNat ∧ c.toNat ≤ 57) ∨ c.toNat = 95) ∨ c.toNat = 36 := hname
  omega

end Edges

/-- What opens does not go on with the name. -/
theorem Opens.not_isNameChar {after : List Char} (h : Opens after) :
    ∀ c ∈ after.head?, isNameChar c = false := by
  obtain ⟨blanks, rest, rfl, hblanks⟩ := h
  cases blanks with
  | nil =>
    intro c hc
    obtain rfl : '(' = c := by simpa using hc
    rfl
  | cons b blanks =>
    intro c hc
    obtain rfl : b = c := by simpa using hc
    exact not_isNameChar_of_isBlank (hblanks b (by simp))

/-- Where no dollar sign is involved, an edge of a word is an end of the identifier. -/
theorem edge_iff (houtside : outside ≠ some '$') (hinside : inside ≠ some '$') :
    Edge outside inside ↔ ∀ c ∈ outside, isNameChar c = false := by
  simp only [Edge, hinside, iff_false, not_exists, not_and, Bool.not_eq_true]
  refine forall_congr' fun c => forall_congr' fun hc => ?_
  have hdollar : c ≠ '$' := by
    rintro rfl
    exact houtside hc
  simp [isNameChar, hdollar]

theorem foundIn_iff_standsIn {name line : List Char} {callable : Bool}
    (h : NoDollar name line callable) :
    FoundIn name line callable ↔ StandsIn name line callable := by
  unfold FoundIn StandsIn
  refine exists_congr fun before => exists_congr fun after => and_congr_right fun hline => ?_
  rw [edge_iff (h.before before after hline) h.head]
  refine and_congr_right fun _ => ?_
  cases callable with
  | true =>
    simp only [if_true, true_imp_iff]
    exact ⟨fun hopens => ⟨hopens.not_isNameChar, hopens⟩, And.right⟩
  | false => simp [edge_iff (h.after rfl before after hline) (h.last rfl)]

theorem NoDollar.of_not_mem {name line : List Char} {callable : Bool} (hname : '$' ∉ name)
    (hline : '$' ∉ line) : NoDollar name line callable where
  head h := hname (List.mem_of_head? h)
  last _ h := hname (List.mem_of_getLast? h)
  before before after hsplit h := hline (by simp [hsplit, List.mem_of_getLast? h])
  after _ before after hsplit h := hline (by simp [hsplit, List.mem_of_head? h])

/-- In an ASCII line the tests of the search say that there is an edge on both sides. -/
theorem ends_iff_edges {name before after : List Char} {callable : Bool} (hne : name ≠ [])
    (hname : ∀ c ∈ name, isWordChar c = true ∨ c = '$')
    (hline : ∀ c ∈ before ++ name ++ after, c.toNat < 128) :
    (isBoundary before.getLast? name.head? = true ∧
      mentionEnds callable name.getLast? after = true) ↔
      Edge before.getLast? name.head? ∧
        if callable then Opens after else Edge after.head? name.getLast? := by
  have hhead : ∃ c ∈ name.head?, isWordChar c = true ∨ c = '$' :=
    ⟨_, List.head?_eq_some_head hne, hname _ (List.head_mem hne)⟩
  have hlast : ∃ c ∈ name.getLast?, isWordChar c = true ∨ c = '$' :=
    ⟨_, List.getLast?_eq_some_getLast hne, hname _ (List.getLast_mem hne)⟩
  have hbefore : ∀ c ∈ before.getLast?, c.toNat < 128 := by
    intro c hc
    exact hline c (by simp [List.mem_of_getLast? hc])
  have hafter : ∀ c ∈ after.head?, c.toNat < 128 := by
    intro c hc
    exact hline c (by simp [List.mem_of_head? hc])
  rw [isBoundary_iff_edge hbefore hhead]
  refine and_congr_right fun _ => ?_
  cases callable with
  | true => simp [mentionEnds, opens_iff]
  | false =>
    rw [mentionEnds, if_neg Bool.false_ne_true, if_neg Bool.false_ne_true, isBoundary_comm]
    exact isBoundary_iff_edge hafter hlast

/-- **A line mentions a name where it finds it between edges of words**; if no dollar sign is
involved, that is where the name stands as an identifier of its own. -/
theorem mentions_iff_foundIn (name line : String) (kind : SymbolKind) (hne : name ≠ "")
    (hname : ∀ c ∈ name.toList, isWordChar c = true ∨ c = '$')
    (hline : ∀ c ∈ line.toList, c.toNat < 128) :
    (mentions name kind line = true ↔ FoundIn name.toList line.toList kind.isCallable) ∧
      (NoDollar name.toList line.toList kind.isCallable →
        (mentions name kind line = true ↔ StandsIn name.toList line.toList kind.isCallable)) := by
  suffices h : mentions name kind line = true ↔ FoundIn name.toList line.toList kind.isCallable from
    ⟨h, fun hdollar => h.trans (foundIn_iff_standsIn hdollar)⟩
  have hchars : name.toList ≠ [] := by simpa using hne
  rw [mentions, mentionsFrom_iff, FoundIn]
  refine exists_congr fun before => ?_
  rw [Option.or_none]
  constructor
  · rintro ⟨_, hcs, hhere⟩
    obtain ⟨after, rfl, hends⟩ := (mentionsHere_iff hchars).1 hhere
    rw [← List.append_assoc] at hcs
    exact ⟨after, hcs, (ends_iff_edges hchars hname (hcs ▸ hline)).1 hends⟩
  · rintro ⟨after, hcs, hedges⟩
    refine ⟨name.toList ++ after, by rw [hcs, List.append_assoc], ?_⟩
    exact (mentionsHere_iff hchars).2
      ⟨after, rfl, (ends_iff_edges hchars hname (hcs ▸ hline)).2 hedges⟩

theorem standsIn_verify :
    "verify" ≠ "" ∧ (∀ c ∈ "verify".toList, isWordChar c = true ∨ c = '$') ∧
      (∀ c ∈ "ok = verify (t)".toList, c.toNat < 128) ∧
      NoDollar "verify".toList "ok = verify (t)".toList true ∧
      mentions "verify" .function "ok = verify (t)" = true ∧
      StandsIn "verify".toList "ok = verify (t)".toList true := by
  have hname : ∀ c ∈ "verify".toList, isWordChar c = true ∨ c = '$' :=
    fun c hc => .inl (List.all_eq_true.mp (by decide : "verify".toList.all isWordChar = true) c hc)
  have hline : ∀ c ∈ "ok = verify (t)".toList, c.toNat < 128 := by
    intro c hc
    have hall : "ok = verify (t)".toList.all (·.toNat < 128) = true := by decide
    simpa using List.all_eq_true.mp hall c hc
  have hdollar : NoDollar "verify".toList "ok = verify (t)".toList true :=
    NoDollar.of_not_mem (by decide) (by decide)
  have hmentions : mentions "verify" .function "ok = verify (t)" = true := by decide
  refine ⟨by decide, hname, hline, hdollar, hmentions, ?_⟩
  exact ((mentions_iff_foundIn "verify" "ok = verify (t)" .function (by decide) hname hline).2
    hdollar).1 hmentions

example : mentions "$watch" .function "$watch(x)" = false := by decide

end CodeAtlas
