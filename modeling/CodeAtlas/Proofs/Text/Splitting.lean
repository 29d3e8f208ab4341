import CodeAtlas.Proofs.Text.Tokens

/-!
# Names that are split already

Setup: splitting a name loses nothing but separators, and its words are *whole*: spacing puts
nothing into them. A word was cut out of a longer text, so inside it the same characters stand side
by side, but ahead of its last one there may now be a space where a letter was. A look ahead only
ever makes a word start (`startsWord_of_end`), so with less to see ahead no new word starts.

* `flatten_identifierWords` — put together, the words are the letters and digits of the name.
* `whole_of_mem_identifierWords` — every word is whole.
* `identifierWords_joinWords` — whole words with spaces between them are the words of what they make
  up.
* **`splitIdentifier_lossless`** — the three facts about the split name, and that splitting it again
  changes nothing.
-/

namespace CodeAtlas.Text

open CodeAtlas.Unicode

variable {c : Char} {cs w : List Char} {prev : Option Char}

/-! ## Blanks and letters -/

/-- The code points of the blanks. -/
def blankPoints : List Nat :=
  List.range' 9 5 ++ [0x20, 0x85, 0xA0, 0x1680] ++ List.range' 0x2000 11 ++
    [0x2028, 0x2029, 0x202F, 0x205F, 0x3000]

theorem mem_blankPoints (h : isBlank c = true) : c.toNat ∈ blankPoints := by
  simp only [isBlank, Bool.or_eq_true, Bool.and_eq_true, decide_eq_true_eq, beq_iff_eq] at h
  simp only [blankPoints, List.mem_append, List.mem_range'_1, List.mem_cons, List.not_mem_nil,
    or_false]
  omega

/-- A letter or digit of any script is no blank. -/
theorem not_isBlank (h : isAlphanumeric c = true) : isBlank c = false := by
  have hpoints : ∀ n ∈ blankPoints, isAlphanumeric (Char.ofNat n) = false := by decide +kernel
  cases hblank : isBlank c with
  | false => rfl
  | true =>
    have hnot := hpoints c.toNat (mem_blankPoints hblank)
    rw [Char.ofNat_toNat, h] at hnot
    exact absurd hnot Bool.true_eq_false_eq_False

/-! ## Nothing is lost -/

/-- A blank in front changes no word. -/
theorem blankWords_cons_of_blank (h : isBlank c = true) : blankWords (c :: cs) = blankWords cs := by
  rw [blankWords, List.foldr_cons, pushWordChar_of_blank h, blankWords]

/-- Any other character in front is a word or lengthens the first one. -/
theorem exists_blankWords_cons (cs : List Char) (h : isBlank c = false) :
    ∃ w words, blankWords (c :: cs) = (c :: w) :: words ∧
      (w = [] ∧ words = blankWords cs ∨ blankWords cs = w :: words) := by
  have htouching : _ → blankWords cs ≠ [] := words_ne_nil_of_touching
  rw [blankWords] at htouching
  rw [blankWords, blankWords, List.foldr_cons]
  generalize cs.foldr pushWordChar (false, []) = state at htouching ⊢
  obtain ⟨touching, words⟩ := state
  rw [pushWordChar_of_not_blank h]
  cases touching with
  | false => exact ⟨[], words, rfl, .inl ⟨rfl, rfl⟩⟩
  | true =>
    obtain ⟨w, words, rfl⟩ := List.exists_cons_of_ne_nil (htouching rfl)
    exact ⟨w, words, rfl, .inr rfl⟩

/-- The words between blanks hold all that is not blank. -/
theorem flatten_blankWords (cs : List Char) : (blankWords cs).flatten = cs.filter (!isBlank ·) := by
  induction cs with
  | nil => rfl
  | cons c cs ih =>
    rw [List.filter_cons, ← ih]
    cases hblank : isBlank c with
    | true => simp [blankWords_cons_of_blank hblank]
    | false =>
      obtain ⟨w, words, hcons, ⟨rfl, rfl⟩ | hcs⟩ := exists_blankWords_cons cs hblank
      · rw [hcons]; rfl
      · rw [hcons, hcs]; rfl

/-- No word between blanks is empty. -/
theorem ne_nil_of_mem_blankWords (hw : w ∈ blankWords cs) : w ≠ [] := by
  induction cs with
  | nil => cases hw
  | cons c cs ih =>
    cases hblank : isBlank c with
    | true => exact ih (blankWords_cons_of_blank hblank ▸ hw)
    | false =>
      obtain ⟨v, words, hcons, hcs⟩ := exists_blankWords_cons cs hblank
      rw [hcons] at hw
      rcases List.mem_cons.mp hw with rfl | hw
      · exact List.cons_ne_nil c v
      · rcases hcs with ⟨-, rfl⟩ | hcs
        · exact ih hw
        · exact ih (hcs ▸ List.mem_cons_of_mem v hw)

/-- Spacing puts in nothing but blanks, and takes out nothing but separators. -/
theorem filter_spacedEach (prev : Option Char) (cs : List Char) :
    (spacedEach prev cs).filter (!isBlank ·) = cs.filter isAlphanumeric := by
  have hspace : isBlank ' ' = true := by decide
  induction cs generalizing prev with
  | nil => rfl
  | cons c cs ih =>
    cases hc : isAlphanumeric c with
    | false => simp [spacedEach, hc, hspace, ih]
    | true =>
      have hblank := not_isBlank hc
      simp only [spacedEach, hc, Bool.not_true, Bool.false_eq_true, if_false]
      split_ifs <;> simp [hc, hspace, hblank, ih]

/-- **Put together, the words of a name are its letters and digits**, in their order. -/
theorem flatten_identifierWords (cs : List Char) :
    (identifierWords cs).flatten = cs.filter isAlphanumeric := by
  rw [identifierWords_eq, flatten_blankWords, filter_spacedEach]

/-- The words are made of letters and digits. -/
theorem isAlphanumeric_of_mem_identifierWords (hw : w ∈ identifierWords cs) (hc : c ∈ w) :
    isAlphanumeric c = true := by
  have hflat : c ∈ (identifierWords cs).flatten := List.mem_flatten_of_mem hw hc
  rw [flatten_identifierWords] at hflat
  exact (List.mem_filter.mp hflat).2

/-! ## Whole words

The induction runs along the name. What it carries is said of the word that the next character may
still lengthen: it is a beginning of the rest of the name, and behind the character before the rest
nothing starts in it. -/

/-- A word in which no other word starts. -/
def Whole (w : List Char) : Prop :=
  spacedEach none w = w

/-- **Seeing less ahead starts no word**: what starts one at the end of a text does so in front of
anything. -/
theorem startsWord_of_end {prev c : Char} (h : startsWord prev c none = true) (next : Option Char) :
    startsWord prev c next = true := by
  simp only [startsWord, Bool.or_eq_true, Bool.and_eq_true, Option.any_none, Bool.and_false,
    Bool.false_eq_true, or_false] at h ⊢
  rcases h with h | ⟨hc, hprev⟩
  · exact .inl h
  · exact .inr ⟨hc, .inl hprev⟩

/-- No word starts in a beginning of a text where none starts in the text. -/
theorem any_startsWord_of_isPrefix (hw : w <+: cs)
    (h : prev.any (startsWord · c cs.head?) = false) :
    prev.any (startsWord · c w.head?) = false := by
  cases w with
  | nil =>
    cases prev with
    | none => rfl
    | some prev =>
      rw [Option.any_some, List.head?_nil]
      exact Bool.eq_false_iff.mpr fun hend =>
        Bool.eq_false_iff.mp h (startsWord_of_end hend cs.head?)
  | cons d w =>
    obtain ⟨rest, rfl⟩ := hw
    exact h

/-- A letter or digit that starts no word is spaced as it is. -/
theorem spacedEach_cons_of_not_starts (hc : isAlphanumeric c = true)
    (h : prev.any (startsWord · c cs.head?) = false) :
    spacedEach prev (c :: cs) = c :: spacedEach (some c) cs := by
  simp [spacedEach, hc, h]

/-- The words of a rest of a name behind `prev`, and whether the character before may lengthen the
first. -/
structure Pieces (prev : Option Char) (cs : List Char) (state : Bool × List (List Char)) :
    Prop where
  /-- all of them are whole -/
  whole : ∀ w ∈ state.2, Whole w
  /-- the first one may be lengthened only if nothing starts in it behind `prev` -/
  touching : state.1 = true → ∃ w words, state.2 = w :: words ∧ w <+: cs ∧ spacedEach prev w = w

/-- A letter or digit makes a word of its own or lengthens the first one; that word is whole. -/
theorem Pieces.push {state : Bool × List (List Char)} (h : Pieces (some c) cs state)
    (hc : isAlphanumeric c = true) :
    ∃ w words, pushWordChar c state = (true, (c :: w) :: words) ∧ w <+: cs ∧
      spacedEach (some c) w = w ∧
      ∀ v ∈ (c :: w) :: words, Whole v := by
  have hwhole {w : List Char} (hw : spacedEach (some c) w = w) : Whole (c :: w) := by
    rw [Whole, spacedEach_cons_of_not_starts hc rfl, hw]
  obtain ⟨touching, words⟩ := state
  rw [pushWordChar_of_not_blank (not_isBlank hc)]
  cases touching with
  | false =>
    exact ⟨[], words, rfl, List.nil_prefix, rfl, List.forall_mem_cons.mpr ⟨hwhole rfl, h.whole⟩⟩
  | true =>
    obtain ⟨w, rest, hwords, hprefix, hw⟩ := h.touching rfl
    obtain rfl : words = w :: rest := hwords
    exact ⟨w, rest, rfl, hprefix, hw,
      List.forall_mem_cons.mpr ⟨hwhole hw, (List.forall_mem_cons.mp h.whole).2⟩⟩

/-- The words of every rest of a name are whole. -/
theorem pieces_spacedEach (prev : Option Char) (cs : List Char) :
    Pieces prev cs ((spacedEach prev cs).foldr pushWordChar (false, [])) := by
  have hspace : isBlank ' ' = true := by decide
  induction cs generalizing prev with
  | nil => exact ⟨fun w hw => absurd hw List.not_mem_nil, fun h => absurd h Bool.false_ne_true⟩
  | cons c cs ih =>
    have htail := ih (some c)
    cases hc : isAlphanumeric c with
    | false =>
      have hspaced : spacedEach prev (c :: cs) = ' ' :: spacedEach (some c) cs := by
        simp [spacedEach, hc]
      rw [hspaced, List.foldr_cons, pushWordChar_of_blank hspace]
      exact ⟨htail.whole, fun h => absurd h Bool.false_ne_true⟩
    | true =>
      obtain ⟨w, words, hpush, hprefix, hw, hwhole⟩ := htail.push hc
      cases hstarts : prev.any (startsWord · c cs.head?) with
      | true =>
        have hspaced : spacedEach prev (c :: cs) = ' ' :: c :: spacedEach (some c) cs := by
          simp [spacedEach, hc, hstarts]
        rw [hspaced, List.foldr_cons, List.foldr_cons, hpush, pushWordChar_of_blank hspace]
        exact ⟨hwhole, fun h => absurd h Bool.false_ne_true⟩
      | false =>
        rw [spacedEach_cons_of_not_starts hc hstarts, List.foldr_cons, hpush]
        refine ⟨hwhole, fun _ => ⟨c :: w, words, rfl, (List.prefix_cons_inj c).mpr hprefix, ?_⟩⟩
        rw [spacedEach_cons_of_not_starts hc (any_startsWord_of_isPrefix hprefix hstarts), hw]

/-- **The words of a name are whole.** -/
theorem whole_of_mem_identifierWords (hw : w ∈ identifierWords cs) : Whole w := by
  rw [identifierWords_eq] at hw
  exact (pieces_spacedEach none cs).whole w hw

/-! ## Splitting again -/

/-- Without a blank there is one word. -/
theorem blankWords_of_not_blank (hsome : cs ≠ []) (h : ∀ c ∈ cs, isBlank c = false) :
    blankWords cs = [cs] := by
  have hfold : cs.foldr pushWordChar (false, []) = (true, [cs]) := by
    induction cs with
    | nil => exact absurd rfl hsome
    | cons c cs ih =>
      obtain ⟨hc, hcs⟩ := List.forall_mem_cons.mp h
      rw [List.foldr_cons]
      cases cs with
      | nil => rw [List.foldr_nil, pushWordChar_of_not_blank hc]; rfl
      | cons d cs => rw [ih (List.cons_ne_nil d cs) hcs, pushWordChar_of_not_blank hc]; rfl
  rw [blankWords, hfold]

/-- A whole word has one word, itself. -/
theorem identifierWords_of_whole (hsome : w ≠ []) (hletters : ∀ c ∈ w, isAlphanumeric c = true)
    (h : Whole w) : identifierWords w = [w] := by
  rw [identifierWords_eq, h]
  exact blankWords_of_not_blank hsome fun c hc => not_isBlank (hletters c hc)

/-- The words of whole words with spaces between them are these words. -/
theorem identifierWords_joinWords {words : List (List Char)}
    (h : ∀ w ∈ words, identifierWords w = [w]) : identifierWords (joinWords words) = words := by
  induction words with
  | nil => rfl
  | cons w words ih =>
    obtain ⟨hw, hwords⟩ := List.forall_mem_cons.mp h
    cases words with
    | nil => rw [joinWords, List.intercalate_singleton, hw]
    | cons v words =>
      have hjoin : joinWords (w :: v :: words) = w ++ ' ' :: joinWords (v :: words) := by
        simp [joinWords, List.intercalate_cons_cons]
      rw [hjoin, identifierWords_append_space, hw, ih hwords]
      rfl

/-- The words of a split name are those of the name. -/
theorem identifierWords_splitIdentifier (s : String) :
    identifierWords (splitIdentifier s).toList = identifierWords s.toList := by
  rw [splitIdentifier, String.toList_ofList]
  exact identifierWords_joinWords fun w hw => identifierWords_of_whole (ne_nil_of_mem_blankWords hw)
    (fun c hc => isAlphanumeric_of_mem_identifierWords hw hc) (whole_of_mem_identifierWords hw)

/-- **Splitting a name loses nothing and is done once**: the split name is made of words that are
not empty and have only letters and digits, with one space between two of them; put together, the
words are the letters and digits of the name in their order; and to split the split name changes
nothing. -/
theorem splitIdentifier_lossless (s : String) :
    (∃ words : List (List Char), (splitIdentifier s).toList = joinWords words ∧
      (∀ w ∈ words, w ≠ [] ∧ ∀ c ∈ w, isAlphanumeric c = true) ∧
      words.flatten = s.toList.filter isAlphanumeric) ∧
    splitIdentifier (splitIdentifier s) = splitIdentifier s := by
  refine ⟨⟨identifierWords s.toList, String.toList_ofList, fun w hw => ?_, ?_⟩, ?_⟩
  · exact ⟨ne_nil_of_mem_blankWords hw, fun c hc => isAlphanumeric_of_mem_identifierWords hw hc⟩
  · exact flatten_identifierWords s.toList
  · rw [splitIdentifier, identifierWords_splitIdentifier, splitIdentifier]

example : splitIdentifier "HTTPServer->base64" = "HTTP Server base 64" := by decide +kernel

end CodeAtlas.Text
