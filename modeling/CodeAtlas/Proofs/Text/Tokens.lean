import CodeAtlas.Text.Identifier
import Mathlib.Tactic

/-!
# The tokens of texts put together

Setup: a separator of two characters makes one space, but two would tell the same words apart
(`identifierWords_eq`). The spacing of a name looks one character back and one ahead, but a space is
neither a letter nor a digit, so nothing is seen across it: what stands in front of a space and what
stands behind it are spaced on their own (`spacedEach_append_space`), and their words do not run
together (`blankWords_append_space`).

* **`tokens_append_space`** — the tokens of two texts with a space between them are those of the one
  and then those of the other.
* **`tokenSet_append_space`** — so the set of them is the union.
-/

namespace CodeAtlas.Text

open CodeAtlas.Unicode

variable {cs ds : List Char} {prev : Option Char} {s token : String}

/-! ## Spacing -/

/-- The characters with a space for each one that is not alphanumeric, so that a separator of two
characters gives two, and a space in front of each one that starts a word. -/
def spacedEach : Option Char → List Char → List Char
  | _, [] => []
  | prev, c :: cs =>
    if !isAlphanumeric c then ' ' :: spacedEach (some c) cs
    else if prev.any (startsWord · c cs.head?) then ' ' :: c :: spacedEach (some c) cs
    else c :: spacedEach (some c) cs

/-- Behind a space no word is started by a change: there was none before. -/
theorem startsWord_space (c : Char) (next : Option Char) : startsWord ' ' c next = false := by
  have hupper : isUppercase ' ' = false := by decide
  have hlower : isLowercase ' ' = false := by decide
  simp [startsWord, hupper, hlower]

/-- A space ahead is no small letter, just as the end of the text is none. -/
theorem startsWord_before_space (prev c : Char) :
    startsWord prev c (some ' ') = startsWord prev c none := by
  have hlower : isLowercase ' ' = false := by decide
  simp [startsWord, hlower]

/-- A text behind a space is spaced as at the beginning. -/
theorem spacedEach_space (cs : List Char) : spacedEach (some ' ') cs = spacedEach none cs := by
  cases cs with
  | nil => rfl
  | cons c cs => simp [spacedEach, startsWord_space]

/-- **Nothing is seen across a space**: the texts on both sides of it are spaced on their own. -/
theorem spacedEach_append_space (prev : Option Char) (cs ds : List Char) :
    spacedEach prev (cs ++ ' ' :: ds) = spacedEach prev cs ++ ' ' :: spacedEach none ds := by
  induction cs generalizing prev with
  | nil =>
    have hspace : isAlphanumeric ' ' = false := by decide
    simp [spacedEach, hspace, spacedEach_space]
  | cons c cs ih =>
    -- the character ahead is the same, or a space where the text ended
    have hahead :
        prev.any (startsWord · c (cs ++ ' ' :: ds).head?) = prev.any (startsWord · c cs.head?) := by
      cases cs with
      | nil => simp only [List.nil_append, List.head?_cons, List.head?_nil, startsWord_before_space]
      | cons next cs => rfl
    simp only [List.cons_append, spacedEach, hahead, ih]
    split_ifs <;> rfl

/-! ## Words -/

/-- A blank ends the word behind it. -/
theorem pushWordChar_of_blank {c : Char} (h : isBlank c = true) (state : Bool × List (List Char)) :
    pushWordChar c state = (false, state.2) :=
  if_pos h

/-- Any other character makes or lengthens the first word. -/
theorem pushWordChar_of_not_blank {c : Char} (h : isBlank c = false) (touching : Bool)
    (words : List (List Char)) :
    pushWordChar c (touching, words) =
      (true, if touching then (c :: words.headD []) :: words.tail else [c] :: words) := by
  refine (if_neg (Bool.eq_false_iff.mp h)).trans ?_
  cases touching with
  | false => rfl
  | true => cases words <;> rfl

/-- A second space changes no word. -/
theorem foldr_spaced (prev : Option Char) (cs : List Char) :
    (spaced prev cs).foldr pushWordChar (false, []) =
      (spacedEach prev cs).foldr pushWordChar (false, []) := by
  have hspace : isBlank ' ' = true := by decide
  fun_induction spaced prev cs with
  | case1 => rfl
  | case2 prev cs ih =>
    have hcolon : isAlphanumeric ':' = false := by decide
    simp [spacedEach, hcolon, ih, pushWordChar_of_blank hspace]
  | case3 prev cs ih =>
    have hdash : isAlphanumeric '-' = false := by decide
    have hangle : isAlphanumeric '>' = false := by decide
    simp [spacedEach, hdash, hangle, ih, pushWordChar_of_blank hspace]
  | case4 prev c cs _ _ hc ih => simp only [spacedEach, hc, if_true, List.foldr_cons, ih]
  | case5 prev c cs _ _ hc hstarts ih =>
    simp only [spacedEach, hc, hstarts, Bool.false_eq_true, if_true, if_false, List.foldr_cons, ih]
  | case6 prev c cs _ _ hc hstarts ih =>
    simp only [spacedEach, hc, hstarts, Bool.false_eq_true, if_false, List.foldr_cons, ih]

/-- So the words may be told apart character by character. -/
theorem identifierWords_eq (cs : List Char) :
    identifierWords cs = blankWords (spacedEach none cs) :=
  congrArg Prod.snd (foldr_spaced none cs)

/-- A character that touches a word has one to touch. -/
theorem words_ne_nil_of_touching (h : (cs.foldr pushWordChar (false, [])).1 = true) :
    blankWords cs ≠ [] := by
  cases cs with
  | nil => exact absurd h Bool.false_ne_true
  | cons c cs =>
    rw [blankWords]
    rw [List.foldr_cons] at h ⊢
    generalize cs.foldr pushWordChar (false, []) = state at h ⊢
    obtain ⟨touching, words⟩ := state
    cases hblank : isBlank c with
    | true =>
      rw [pushWordChar_of_blank hblank] at h
      exact absurd h Bool.false_ne_true
    | false =>
      rw [pushWordChar_of_not_blank hblank]
      split_ifs <;> exact List.cons_ne_nil _ _

/-- Words that are there already stay behind those of the text. -/
theorem foldr_pushWordChar (cs : List Char) (words : List (List Char)) :
    cs.foldr pushWordChar (false, words) =
      ((cs.foldr pushWordChar (false, [])).1, blankWords cs ++ words) := by
  induction cs with
  | nil => simp only [List.foldr_nil, blankWords, List.nil_append]
  | cons c cs ih =>
    have htouching : _ → blankWords cs ≠ [] := words_ne_nil_of_touching
    rw [blankWords] at ih htouching ⊢
    rw [List.foldr_cons, List.foldr_cons, ih]
    generalize cs.foldr pushWordChar (false, []) = state at htouching ⊢
    obtain ⟨touching, first⟩ := state
    cases hblank : isBlank c with
    | true => simp only [pushWordChar_of_blank hblank]
    | false =>
      simp only [pushWordChar_of_not_blank hblank]
      cases touching with
      | false => rfl
      | true =>
        obtain ⟨word, rest, rfl⟩ := List.exists_cons_of_ne_nil (htouching rfl)
        rfl

/-- **Words do not run together across a space.** -/
theorem blankWords_append_space (cs ds : List Char) :
    blankWords (cs ++ ' ' :: ds) = blankWords cs ++ blankWords ds := by
  have hspace : isBlank ' ' = true := by decide
  rw [blankWords, List.foldr_append, List.foldr_cons, pushWordChar_of_blank hspace,
    foldr_pushWordChar]
  simp only [blankWords]

/-- The words of names put together are the words of the one and then those of the other. -/
theorem identifierWords_append_space (cs ds : List Char) :
    identifierWords (cs ++ ' ' :: ds) = identifierWords cs ++ identifierWords ds := by
  simp only [identifierWords_eq, spacedEach_append_space, blankWords_append_space]

/-! ## Tokens -/

/-- **The tokens of two texts** with a space between them. -/
theorem tokens_append_space (a b : String) : tokens (a ++ " " ++ b) = tokens a ++ tokens b := by
  have htext : (a ++ " " ++ b).toList = a.toList ++ ' ' :: b.toList := by simp
  rw [tokens, htext, identifierWords_append_space, List.filterMap_append]
  rfl

/-- The tokens of several texts with spaces between them. -/
theorem tokens_intercalate (texts : List String) :
    tokens (" ".intercalate texts) = texts.flatMap tokens := by
  induction texts with
  | nil => rfl
  | cons text texts ih =>
    cases texts with
    | nil => simp
    | cons second texts =>
      rw [String.intercalate_cons_cons, tokens_append_space, ih]
      exact List.flatMap_cons.symm

/-- The set of tokens holds the tokens. -/
theorem mem_tokenSet : token ∈ tokenSet s ↔ token ∈ tokens s := by
  rw [tokenSet, Std.TreeSet.mem_ofList, List.contains_iff_mem]

/-- **The set of tokens of two texts** with a space between them is the union of both. -/
theorem tokenSet_append_space (a b : String) :
    (tokenSet (a ++ " " ++ b)).Equiv (tokenSet a ∪ tokenSet b) := by
  refine Std.TreeSet.Equiv.of_forall_mem_iff fun token => ?_
  rw [Std.TreeSet.mem_union_iff, mem_tokenSet, mem_tokenSet, mem_tokenSet, tokens_append_space,
    List.mem_append]

end CodeAtlas.Text
