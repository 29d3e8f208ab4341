import CodeAtlas.Json.Reader
import CodeAtlas.Json.Writer
import Mathlib.Tactic

/-!
# Reading what was written

Setup: the compact layout of a value is read back as that value. Two things are needed of it: its
numbers are spelled as the grammar of numbers has it, and it is not nested deeper than the reader
goes. **`parse?_compact`** is the statement about whole texts.

A number ends where no character can continue it, so every lemma about reading on speaks of what
follows: `EndsNumber rest` says that `rest` continues no number. A comma, a colon and the closing
brackets do not.
-/

namespace CodeAtlas.Json

/-- Whether these characters continue no number. -/
def EndsNumber (rest : List Char) : Prop :=
  ∀ c ∈ rest.head?, c.isDigit = false ∧ c ≠ '.' ∧ c ≠ 'e' ∧ c ≠ 'E'

/-- Nothing continues no number. -/
theorem endsNumber_nil : EndsNumber [] := by
  intro c hc
  cases hc

/-- One look at the next character decides. -/
theorem endsNumber_cons {c : Char} {rest : List Char}
    (h : c.isDigit = false ∧ c ≠ '.' ∧ c ≠ 'e' ∧ c ≠ 'E') : EndsNumber (c :: rest) := by
  intro c' hc'
  cases hc'
  exact h

/-! ## Numbers

The parts of a number are read one after the other: each part stops at the first character of the
next one, and the last part stops because nothing continues it. -/

/-- One or more digits. -/
def Digits (ds : List Char) : Prop :=
  ds ≠ [] ∧ ∀ c ∈ ds, c.isDigit = true

/-- A number that is spelled as the grammar has it. -/
structure Literal.WellFormed (l : Literal) : Prop where
  /-- there are digits before the point -/
  whole : Digits l.whole
  /-- a zero in front of them stands alone -/
  leading : l.whole.head? = some '0' → l.whole = ['0']
  /-- there are digits after the point, if there is a point -/
  fraction : ∀ ds ∈ l.fraction, Digits ds
  /-- the exponent has a mark, perhaps a sign, and digits -/
  exponent : ∀ e ∈ l.exponent, (e.mark = 'e' ∨ e.mark = 'E') ∧
    (∀ s ∈ e.sign, s = '+' ∨ s = '-') ∧ Digits e.digits

/-- What continues no digits. -/
def EndsDigits (rest : List Char) : Prop :=
  ∀ c ∈ rest.head?, c.isDigit = false

theorem EndsNumber.endsDigits {rest : List Char} (h : EndsNumber rest) : EndsDigits rest :=
  fun c hc => (h c hc).1

/-- Digits are read up to what ends them. -/
theorem readDigits?_append {ds rest : List Char} (hds : Digits ds) (hrest : EndsDigits rest) :
    readDigits? (ds ++ rest) = some (ds, rest) := by
  have htake : (ds ++ rest).takeWhile Char.isDigit = ds := by
    rw [List.takeWhile_append_of_pos hds.2]
    cases rest with
    | nil => simp
    | cons c rest => rw [List.takeWhile_cons_of_neg (by simp [hrest c rfl]), List.append_nil]
  have hdrop : (ds ++ rest).dropWhile Char.isDigit = rest := by
    rw [List.dropWhile_append_of_pos hds.2]
    cases rest with
    | nil => rfl
    | cons c rest => exact List.dropWhile_cons_of_neg (by simp [hrest c rfl])
  rw [readDigits?, htake, hdrop]
  simp [hds.1]

/-- The digits before the point are read. -/
theorem readWhole?_append {l : Literal} (h : l.WellFormed) {rest : List Char}
    (hrest : EndsDigits rest) : readWhole? (l.whole ++ rest) = some (l.whole, rest) := by
  rw [readWhole?, readDigits?_append h.whole hrest]
  split
  · next second more _ heq =>
    have hwhole : l.whole = '0' :: second :: more := by simp_all
    have := h.leading (by rw [hwhole]; rfl)
    rw [hwhole] at this
    cases this
  · rfl

/-- The characters of the fraction, the point included. -/
def Literal.fractionChars (l : Literal) : List Char :=
  l.fraction.elim [] fun ds => '.' :: ds

/-- The characters of the exponent part. -/
def Literal.exponentChars (l : Literal) : List Char :=
  l.exponent.elim [] fun e => e.mark :: (e.sign.toList ++ e.digits)

/-- The parts of a number in their order. -/
theorem Literal.chars_eq (l : Literal) : l.chars =
    (if l.negative then ['-'] else []) ++ (l.whole ++ (l.fractionChars ++ l.exponentChars)) := by
  obtain ⟨negative, whole, fraction, exponent⟩ := l
  cases fraction <;> cases exponent <;> simp [chars, fractionChars, exponentChars]

/-- A digit is none of the characters that are no digits. -/
theorem ne_of_isDigit {c d : Char} (hc : c.isDigit = true) (hd : d.isDigit = false) : c ≠ d := by
  rintro rfl
  rw [hc] at hd
  cases hd

/-- A digit is no blank. -/
theorem isSpace_of_isDigit {c : Char} (h : c.isDigit = true) : isSpace c = false := by
  have hspace : c ≠ ' ' := ne_of_isDigit h (by decide)
  have htab : c ≠ '\t' := ne_of_isDigit h (by decide)
  have hline : c ≠ '\n' := ne_of_isDigit h (by decide)
  have hreturn : c ≠ '\r' := ne_of_isDigit h (by decide)
  simp [isSpace, hspace, htab, hline, hreturn]

/-- A number starts with its sign or with a digit. -/
theorem Literal.WellFormed.exists_cons {l : Literal} (h : l.WellFormed) :
    ∃ c rest, l.chars = c :: rest ∧ (c = '-' ∨ c.isDigit = true) := by
  rw [l.chars_eq]
  cases l.negative with
  | true => exact ⟨'-', _, rfl, .inl rfl⟩
  | false =>
    obtain ⟨d, ds, hds⟩ := List.exists_cons_of_ne_nil h.whole.1
    rw [hds]
    exact ⟨d, _, rfl, .inr (h.whole.2 d (by rw [hds]; exact List.mem_cons_self))⟩

/-- The exponent part is read. -/
theorem readExponent?_append {l : Literal} (h : l.WellFormed) {rest : List Char}
    (hrest : EndsNumber rest) :
    readExponent? (l.exponentChars ++ rest) = some (l.exponent, rest) := by
  rw [Literal.exponentChars]
  cases he : l.exponent with
  | none =>
    cases rest with
    | nil => rfl
    | cons c rest =>
      obtain ⟨-, -, hlower, hupper⟩ := hrest c rfl
      simp [readExponent?, hlower, hupper]
  | some e =>
    -- a sign is read if there is one, and otherwise the first digit must not pass for one
    obtain ⟨mark, sign, digits⟩ := e
    obtain ⟨hmark, hsign, hdigits⟩ := h.exponent _ he
    simp only at hmark hsign hdigits
    have hmark' : (mark = 'e' || mark = 'E') = true := by simpa using hmark
    have hread := readDigits?_append hdigits hrest.endsDigits
    cases sign with
    | some s => rcases hsign s rfl with rfl | rfl <;> simp_all [readExponent?]
    | none =>
      obtain ⟨d, ds, rfl⟩ := List.exists_cons_of_ne_nil hdigits.1
      have hd := hdigits.2 d List.mem_cons_self
      have hplus : d ≠ '+' := ne_of_isDigit hd (by decide)
      have hminus : d ≠ '-' := ne_of_isDigit hd (by decide)
      simp only [readExponent?, Option.elim_some, Option.toList_none, List.nil_append,
        List.cons_append, hmark', if_true]
      split
      · next heq => simp_all
      · next heq => simp_all
      · rw [List.cons_append] at hread
        rw [hread]
        rfl

/-- An exponent part does not go on with digits. -/
theorem endsDigits_exponentChars {l : Literal} (h : l.WellFormed) {rest : List Char}
    (hrest : EndsNumber rest) : EndsDigits (l.exponentChars ++ rest) := by
  rw [Literal.exponentChars]
  cases he : l.exponent with
  | none => exact hrest.endsDigits
  | some e =>
    intro c hc
    cases hc
    rcases (h.exponent e he).1 with hmark | hmark <;> rw [hmark] <;> decide

/-- An exponent part starts with no point. -/
theorem head?_exponentChars {l : Literal} (h : l.WellFormed) {rest : List Char}
    (hrest : EndsNumber rest) : (l.exponentChars ++ rest).head? ≠ some '.' := by
  rw [Literal.exponentChars]
  cases he : l.exponent with
  | none => exact fun hdot => (hrest '.' hdot).2.1 rfl
  | some e =>
    intro hdot
    have hmark : e.mark = '.' := by simpa using hdot
    rcases (h.exponent e he).1 with hmark' | hmark' <;> rw [hmark'] at hmark <;> cases hmark

/-- The fraction is read. -/
theorem readFraction?_append {l : Literal} (h : l.WellFormed) {rest : List Char}
    (hrest : EndsNumber rest) :
    readFraction? (l.fractionChars ++ (l.exponentChars ++ rest)) =
      some (l.fraction, l.exponentChars ++ rest) := by
  have hends := endsDigits_exponentChars h hrest
  have hhead := head?_exponentChars h hrest
  generalize l.exponentChars ++ rest = after at hends hhead ⊢
  rw [Literal.fractionChars]
  cases hf : l.fraction with
  | some ds =>
    simp only [Option.elim_some, List.cons_append, readFraction?,
      readDigits?_append (h.fraction ds hf) hends, Option.map_some]
  | none =>
    rw [Option.elim_none, List.nil_append, readFraction?]
    rintro cs rfl
    exact hhead rfl

/-- The characters after the first digits do not go on with digits. -/
theorem endsDigits_fractionChars {l : Literal} (h : l.WellFormed) {rest : List Char}
    (hrest : EndsNumber rest) : EndsDigits (l.fractionChars ++ (l.exponentChars ++ rest)) := by
  rw [Literal.fractionChars]
  cases l.fraction with
  | some ds => intro c hc; cases hc; decide
  | none => exact endsDigits_exponentChars h hrest

/-- **A number is read back.** -/
theorem readNumber?_append {l : Literal} (h : l.WellFormed) {rest : List Char}
    (hrest : EndsNumber rest) : readNumber? (l.chars ++ rest) = some (l, rest) := by
  have hwhole := readWhole?_append h (endsDigits_fractionChars h hrest)
  have hfraction := readFraction?_append h hrest
  have hexponent := readExponent?_append h hrest
  simp only [Literal.chars_eq, List.append_assoc]
  cases hneg : l.negative with
  | true =>
    simp only [readNumber?, if_true, List.cons_append, List.nil_append, hwhole, hfraction,
      hexponent, Option.bind_eq_bind, Option.bind_some]
    rw [← hneg]
  | false =>
    obtain ⟨d, ds, hds⟩ := List.exists_cons_of_ne_nil h.whole.1
    have hminus : d ≠ '-' := ne_of_isDigit (h.whole.2 d (by simp [hds])) (by decide)
    simp only [Bool.false_eq_true, if_false, List.nil_append, readNumber?]
    split
    · next heq => simp_all
    · simp only [hwhole, hfraction, hexponent, Option.bind_eq_bind, Option.bind_some]
      rw [← hneg]

/-! ## Texts

An escape is read as the character that it was written for, and any other character as itself. -/

/-- The last digit of a control character spells its number after three zeros or two zeros and a
one. -/
theorem readHex4?_hexDigits (n : Nat) (hn : n < 32) (rest : List Char) :
    readHex4?
      ((if n < 16 then ['0', '0', '0'] else ['0', '0']) ++ Text.Quoted.hexDigits n ++ rest) =
      some (n, rest) := by
  interval_cases n <;> rfl

/-- Four digits that spell a character in front of the surrogates are read as it. -/
theorem readChars?_unit (fuel : Nat) (read : List Char) {c : Char} {cs rest : List Char}
    (hread : readHex4? cs = some (c.toNat, rest)) (hlow : c.toNat < 0xD800) :
    readChars? (fuel + 1) read ('\\' :: 'u' :: cs) = readChars? fuel (c :: read) rest := by
  have hlow' : ¬0xD800 ≤ c.toNat := by omega
  have hhigh : ¬0xDC00 ≤ c.toNat := by omega
  rw [readChars?]
  simp [hread, readUnit?, hhigh, hlow', Char.ofNat_toNat]

/-- **The escaped form of a character is read as that character.** -/
theorem readChars?_escapeChar (fuel : Nat) (read : List Char) (c : Char) (rest : List Char) :
    readChars? (fuel + 1) read (escapeChar c ++ rest) = readChars? fuel (c :: read) rest := by
  have control {n : Nat} (h : c.toNat = n) : c = Char.ofNat n := by rw [← h, Char.ofNat_toNat]
  rw [escapeChar]
  split_ifs with hquote hslash hback hform hline hreturn htab hlow hcontrol
  · subst hquote; rfl
  · subst hslash; rfl
  · rw [control hback]; rfl
  · rw [control hform]; rfl
  · subst hline; rfl
  · subst hreturn; rfl
  · subst htab; rfl
  · have hread := readHex4?_hexDigits c.toNat (by omega) rest
    rw [if_pos hlow] at hread
    exact readChars?_unit fuel read hread (by omega)
  · have hread := readHex4?_hexDigits c.toNat hcontrol rest
    rw [if_neg hlow] at hread
    exact readChars?_unit fuel read hread (by omega)
  · simp only [List.cons_append, List.nil_append, readChars?.eq_def (fuel + 1), if_neg hquote,
      if_neg hslash, if_neg hcontrol]

/-- The escaped characters of a text are read up to the quote that closes it. -/
theorem readChars?_flatMap (cs : List Char) (rest : List Char) :
    ∀ (fuel : Nat) (read : List Char), cs.length < fuel →
      readChars? fuel read (cs.flatMap escapeChar ++ '"' :: rest) =
        some (read.reverse ++ cs, rest) := by
  induction cs with
  | nil =>
    intro fuel read hfuel
    obtain ⟨fuel, rfl⟩ := Nat.exists_eq_add_of_lt hfuel
    simp [readChars?]
  | cons c cs ih =>
    intro fuel read hfuel
    obtain ⟨fuel, rfl⟩ := Nat.exists_eq_add_of_lt hfuel
    rw [List.flatMap_cons, List.append_assoc, readChars?_escapeChar, ih]
    · simp
    · simp only [List.length_cons]; omega

/-- No character is escaped by nothing. -/
theorem escapeChar_length_pos (c : Char) : 0 < (escapeChar c).length := by
  rw [escapeChar]
  split_ifs <;> simp

/-- A written text is at least as long as the text. -/
theorem length_le_flatMap_escapeChar (cs : List Char) :
    cs.length ≤ (cs.flatMap escapeChar).length := by
  induction cs with
  | nil => rfl
  | cons c cs ih =>
    have := escapeChar_length_pos c
    simp only [List.flatMap_cons, List.length_append, List.length_cons]
    omega

/-- **A text is read back** once its opening quote has been read. -/
theorem readText?_append (s : String) {size : Nat} (hsize : (writeText s).length ≤ size)
    (rest : List Char) :
    readText? size (s.toList.flatMap escapeChar ++ '"' :: rest) = some (s, rest) := by
  have hlength := length_le_flatMap_escapeChar s.toList
  simp only [writeText, List.cons_append, List.length_cons, List.length_append] at hsize
  rw [readText?, readChars?_flatMap _ _ _ _ (by omega)]
  simp

/-! ## Values

`Fits depth j` is what the reader needs of a value. The list reader is generic in its items, so its
lemma is too: it asks that each item is read back and that no item starts with a blank or with the
bracket that closes the list. -/

/-- The value is nested at most `depth` deep, and its numbers are spelled as the grammar has it. -/
inductive Fits : Nat → Json → Prop where
  /-- nothing is nested in the word `null` -/
  | null {depth : Nat} : Fits depth .null
  /-- nothing is nested in a truth value -/
  | bool {depth : Nat} (value : Bool) : Fits depth (.bool value)
  /-- nothing is nested in a number -/
  | number {depth : Nat} {literal : Literal} (h : literal.WellFormed) : Fits depth (.number literal)
  /-- nothing is nested in a text -/
  | text {depth : Nat} (value : String) : Fits depth (.text value)
  /-- the items are one deeper than the list -/
  | array {depth : Nat} {items : List Json} (h : ∀ x ∈ items, Fits depth x) :
      Fits (depth + 1) (.array items)
  /-- the values are one deeper than the object -/
  | object {depth : Nat} {fields : List (String × Json)}
      (h : ∀ field ∈ fields, Fits depth field.2) :
      Fits (depth + 1) (.object fields)

/-- The characters of a field. -/
def writeField (field : String × Json) : List Char :=
  writeText field.1 ++ ':' :: write field.2

@[simp] theorem write_array (items : List Json) :
    write (.array items) = '[' :: (separated [','] (items.map write) ++ [']']) := by
  rw [write, ← List.attach_map_val (l := items)]
  rfl

@[simp] theorem write_object (fields : List (String × Json)) :
    write (.object fields) = '\x7b' :: (separated [','] (fields.map writeField) ++ ['\x7d']) := by
  rw [write, ← List.attach_map_val (l := fields)]
  rfl

/-- Characters that start with neither a blank nor a closing bracket. -/
def Solid (cs : List Char) : Prop :=
  ∃ c rest, cs = c :: rest ∧ isSpace c = false ∧ c ≠ ']' ∧ c ≠ '\x7d'

theorem Solid.append {cs : List Char} (h : Solid cs) (more : List Char) : Solid (cs ++ more) := by
  obtain ⟨c, rest, rfl, hc⟩ := h
  exact ⟨c, rest ++ more, rfl, hc⟩

/-- A joined list starts as its first part does. -/
theorem Solid.separated {first : List Char} (h : Solid first) (sep : List Char)
    (more : List (List Char)) : Solid (separated sep (first :: more)) := by
  cases more with
  | nil => exact h
  | cons second more => exact (h.append _).append _

/-- Nothing is skipped in front of such characters. -/
theorem Solid.skipSpaces_eq {cs : List Char} (h : Solid cs) : skipSpaces cs = cs := by
  obtain ⟨c, rest, rfl, hc, -⟩ := h
  exact List.dropWhile_cons_of_neg (by simp [hc])

/-- A text starts with its quote. -/
theorem solid_writeText (s : String) : Solid (writeText s) :=
  ⟨'"', _, rfl, rfl, by decide, by decide⟩

/-- A field starts with the quote of its name. -/
theorem solid_writeField (field : String × Json) : Solid (writeField field) :=
  (solid_writeText field.1).append _

/-- A number starts with neither a blank nor a closing bracket. -/
theorem solid_chars {l : Literal} (h : l.WellFormed) : Solid l.chars := by
  obtain ⟨c, rest, hchars, rfl | hc⟩ := h.exists_cons
  · exact ⟨'-', rest, hchars, rfl, by decide, by decide⟩
  · exact ⟨c, rest, hchars, isSpace_of_isDigit hc, ne_of_isDigit hc (by decide),
      ne_of_isDigit hc (by decide)⟩

/-- A value starts with a bracket, a quote, a letter, a sign or a digit. -/
theorem solid_write {depth : Nat} {j : Json} (h : Fits depth j) : Solid j.write := by
  cases h with
  | null => rw [write]; exact ⟨'n', _, rfl, rfl, by decide, by decide⟩
  | bool value =>
    cases value with
    | true => rw [write]; exact ⟨'t', _, rfl, rfl, by decide, by decide⟩
    | false => rw [write]; exact ⟨'f', _, rfl, rfl, by decide, by decide⟩
  | number hl => rw [write]; exact solid_chars hl
  | text s => rw [write]; exact solid_writeText s
  | array => rw [write_array]; exact ⟨'[', _, rfl, rfl, by decide, by decide⟩
  | object => rw [write_object]; exact ⟨'\x7b', _, rfl, rfl, by decide, by decide⟩

/-- A closing bracket. -/
def Closes (c : Char) : Prop := c = ']' ∨ c = '\x7d'

/-- A closing bracket is no blank, no comma and no part of a number. -/
theorem Closes.spec {c : Char} (h : Closes c) :
    isSpace c = false ∧ c ≠ ',' ∧ ∀ rest, EndsNumber (c :: rest) := by
  rcases h with rfl | rfl <;>
    exact ⟨rfl, by decide, fun rest => endsNumber_cons (by decide)⟩

/-- Blank characters. -/
def Blank (cs : List Char) : Prop :=
  ∀ c ∈ cs, isSpace c = true

/-- There are no blanks in the compact layout. -/
theorem blank_nil : Blank [] := by
  intro c hc
  cases hc

/-- Blanks are skipped. -/
theorem Blank.skipSpaces_append {gap : List Char} (h : Blank gap) (cs : List Char) :
    skipSpaces (gap ++ cs) = skipSpaces cs :=
  List.dropWhile_append_of_pos h

/-- No number goes on after blanks. -/
theorem Blank.endsNumber_append {gap rest : List Char} (h : Blank gap) (hrest : EndsNumber rest) :
    EndsNumber (gap ++ rest) := by
  cases gap with
  | nil => exact hrest
  | cons c gap =>
    have hc := h c List.mem_cons_self
    simp only [isSpace, Bool.or_eq_true, decide_eq_true_eq] at hc
    rcases hc with ((rfl | rfl) | rfl) | rfl <;> exact endsNumber_cons (by decide)

/-- **Items are read back** up to the bracket that closes their list. Blanks may follow each comma
and stand before the bracket. -/
theorem readItems?_separated {α : Type} {item : List Char → Option (α × List Char)} {close : Char}
    (hclose : Closes close) {gap last : List Char} (hgap : Blank gap) (hlast : Blank last)
    {written : α → List Char} (rest : List Char) (xs : List α)
    (hread : ∀ x ∈ xs, ∀ rest, EndsNumber rest → item (written x ++ rest) = some (x, rest))
    (hsolid : ∀ x ∈ xs, Solid (written x)) (hne : xs ≠ []) :
    ∀ fuel, xs.length ≤ fuel →
      readItems? item close fuel
        (separated (',' :: gap) (xs.map written) ++ (last ++ close :: rest)) =
        some (xs, rest) := by
  obtain ⟨hspace, hcomma, hends⟩ := hclose.spec
  induction xs with
  | nil => exact absurd rfl hne
  | cons x xs ih =>
    intro fuel hfuel
    obtain ⟨fuel, rfl⟩ : ∃ n, fuel = n + 1 :=
      ⟨fuel - 1, by simp only [List.length_cons] at hfuel; omega⟩
    cases xs with
    | nil =>
      -- the last item: the bracket follows
      have hx := hread x List.mem_cons_self _ (hlast.endsNumber_append (hends rest))
      have hskip : skipSpaces (last ++ close :: rest) = close :: rest := by
        rw [hlast.skipSpaces_append]
        exact List.dropWhile_cons_of_neg (by simp [hspace])
      rw [List.map_cons, List.map_nil, separated, readItems?, hx]
      simp only [hskip, if_true]
    | cons y ys =>
      -- a comma follows, and then an item with nothing but blanks in front
      have htail := ih (fun z hz => hread z (List.mem_cons_of_mem _ hz))
        (fun z hz => hsolid z (List.mem_cons_of_mem _ hz)) (List.cons_ne_nil _ _) fuel
        (by simp only [List.length_cons] at hfuel ⊢; omega)
      have hy := hsolid y (List.mem_cons_of_mem _ List.mem_cons_self)
      have hskip : skipSpaces (gap ++ (separated (',' :: gap) ((y :: ys).map written) ++
            (last ++ close :: rest))) =
          separated (',' :: gap) ((y :: ys).map written) ++ (last ++ close :: rest) := by
        rw [hgap.skipSpaces_append]
        exact ((hy.separated _ _).append _).skipSpaces_eq
      have hx := hread x List.mem_cons_self
        (',' :: (gap ++
          (separated (',' :: gap) ((y :: ys).map written) ++ (last ++ close :: rest))))
        (endsNumber_cons (by decide))
      rw [List.map_cons, List.map_cons, separated, List.append_assoc, List.append_assoc, readItems?,
        List.cons_append, ← List.map_cons, hx]
      simp only [skipSpaces, List.dropWhile_cons_of_neg (show ¬isSpace ',' = true by decide),
        if_neg (Ne.symm hcomma), if_true]
      rw [← skipSpaces, hskip, htail]
      rfl

/-- A group of items is read back once its opening bracket has been read. -/
theorem readGroup?_separated {α : Type} (size : Nat) (item : List Char → Option (α × List Char))
    {close : Char} (hclose : Closes close) {gap last : List Char} (hgap : Blank gap)
    (hlast : Blank last) {written : α → List Char} (rest : List Char) (xs : List α)
    (hread : ∀ x ∈ xs, ∀ rest, EndsNumber rest → item (written x ++ rest) = some (x, rest))
    (hsolid : ∀ x ∈ xs, Solid (written x)) (hsize : xs.length ≤ size) :
    readGroup? size item close
        (gap ++ (separated (',' :: gap) (xs.map written) ++ (last ++ close :: rest))) =
      some (xs, rest) := by
  obtain ⟨hspace, -, -⟩ := hclose.spec
  cases xs with
  | nil =>
    rw [List.map_nil, separated, List.nil_append, readGroup?, hgap.skipSpaces_append,
      hlast.skipSpaces_append, skipSpaces, List.dropWhile_cons_of_neg (by simp [hspace])]
    exact if_pos rfl
  | cons x xs =>
    have hitems := readItems?_separated hclose hgap hlast rest (x :: xs) hread hsolid
      (List.cons_ne_nil _ _) size hsize
    have hall : Solid (separated (',' :: gap) ((x :: xs).map written) ++ (last ++ close :: rest)) :=
      ((hsolid x List.mem_cons_self).separated _ _).append _
    rw [readGroup?, hgap.skipSpaces_append, hall.skipSpaces_eq]
    obtain ⟨c, tail, hcs, -, hbracket, hbrace⟩ := hall
    rw [hcs] at hitems ⊢
    have hne : c ≠ close := by rcases hclose with rfl | rfl <;> assumption
    simp only [if_neg hne, hitems]

/-- An item is not longer than the list of all of them. -/
theorem length_le_separated {α : Type} {written : α → List Char} {xs : List α} {x : α} (h : x ∈ xs)
    (sep : List Char) : (written x).length ≤ (separated sep (xs.map written)).length := by
  induction xs with
  | nil => cases h
  | cons first xs ih =>
    cases xs with
    | nil => rw [List.mem_singleton.mp h]; rfl
    | cons second xs =>
      simp only [List.map_cons, separated, List.length_append] at ih ⊢
      rcases List.mem_cons.mp h with rfl | h
      · omega
      · have := ih h; omega

/-- A list has no more items than characters, when each item has a character. -/
theorem length_le_length_separated {α : Type} {written : α → List Char} {xs : List α}
    (h : ∀ x ∈ xs, Solid (written x)) (sep : List Char) :
    xs.length ≤ (separated sep (xs.map written)).length := by
  induction xs with
  | nil => exact Nat.zero_le _
  | cons first xs ih =>
    obtain ⟨c, rest, hfirst, -⟩ := h first List.mem_cons_self
    have htail := ih fun x hx => h x (List.mem_cons_of_mem _ hx)
    cases xs with
    | nil => simp [separated, hfirst]
    | cons second xs =>
      simp only [List.map_cons, separated, List.length_append, List.length_cons, hfirst] at htail ⊢
      omega

/-- The reader looks past no blank in front of a value, and decides by its first character. -/
theorem readValue?_number (size depth : Nat) {l : Literal} (h : l.WellFormed) {rest : List Char}
    (hrest : EndsNumber rest) :
    readValue? size depth (l.chars ++ rest) = some (.number l, rest) := by
  have hskip := ((solid_chars h).append rest).skipSpaces_eq
  have hread := readNumber?_append h hrest
  obtain ⟨c, cs, hchars, hc⟩ := h.exists_cons
  have hne {d : Char} (hminus : '-' ≠ d) (hd : d.isDigit = false) : c ≠ d := by
    rcases hc with rfl | hc
    · exact hminus
    · exact ne_of_isDigit hc hd
  have hquote : c ≠ '"' := hne (by decide) (by decide)
  have hbracket : c ≠ '[' := hne (by decide) (by decide)
  have hbrace : c ≠ '\x7b' := hne (by decide) (by decide)
  have hnull : c ≠ 'n' := hne (by decide) (by decide)
  have htrue : c ≠ 't' := hne (by decide) (by decide)
  have hfalse : c ≠ 'f' := hne (by decide) (by decide)
  rw [hchars, List.cons_append] at hskip hread ⊢
  rw [readValue?.eq_def]
  simp only [hskip, if_neg hquote, if_neg hbracket, if_neg hbrace, if_neg hnull, if_neg htrue,
    if_neg hfalse, hread, Option.map_some]

/-- A field is read back, when its value is. -/
theorem readField?_writeField {size : Nat} {value : List Char → Option (Json × List Char)}
    (field : String × Json) (hsize : (writeField field).length ≤ size) {rest : List Char}
    (hvalue : value (field.2.write ++ rest) = some (field.2, rest)) :
    readField? size value (writeField field ++ rest) = some (field, rest) := by
  simp only [writeField, List.length_append, List.length_cons] at hsize
  have hname := readText?_append field.1 (show (writeText field.1).length ≤ size by omega)
    (':' :: (field.2.write ++ rest))
  simp [writeField, writeText, readField?, hname, skipSpaces, isSpace, hvalue]

/-- An array is read once its items are. -/
theorem readValue?_array {size depth : Nat} {cs rest : List Char} {items : List Json}
    (h : readGroup? size (readValue? size depth) ']' cs = some (items, rest)) :
    readValue? size (depth + 1) ('[' :: cs) = some (.array items, rest) := by
  rw [readValue?.eq_def]
  simp [skipSpaces, isSpace, h]

/-- An object is read once its fields are. -/
theorem readValue?_object {size depth : Nat} {cs rest : List Char} {fields : List (String × Json)}
    (h : readGroup? size (readField? size (readValue? size depth)) '\x7d' cs =
      some (fields, rest)) :
    readValue? size (depth + 1) ('\x7b' :: cs) = some (.object fields, rest) := by
  rw [readValue?.eq_def]
  simp [skipSpaces, isSpace, h]

/-- **A value is read back**, whatever follows it that continues no number. The induction is on the
nesting; `size` bounds all texts and lists in the value at once. -/
theorem readValue?_write {depth : Nat} {j : Json} (h : Fits depth j) {size : Nat}
    (hsize : j.write.length ≤ size) :
    ∀ rest, EndsNumber rest → readValue? size depth (j.write ++ rest) = some (j, rest) := by
  induction h with
  | null => intro rest _; rw [write, readValue?.eq_def]; rfl
  | bool value =>
    intro rest _
    cases value with
    | true => rw [write, readValue?.eq_def]; rfl
    | false => rw [write, readValue?.eq_def]; rfl
  | number hl => intro rest hrest; rw [write]; exact readValue?_number size _ hl hrest
  | text s =>
    intro rest _
    rw [write] at hsize ⊢
    have hread := readText?_append s hsize rest
    rw [readValue?.eq_def]
    simp [writeText, skipSpaces, isSpace, hread]
  | @array depth items hitems ih =>
    intro rest _
    rw [write_array] at hsize ⊢
    have hsolid : ∀ x ∈ items, Solid x.write := fun x hx => solid_write (hitems x hx)
    have hcount := length_le_length_separated hsolid [',']
    simp only [List.length_cons, List.length_append] at hsize
    have hclose : Closes ']' := .inl rfl
    have hgroup := readGroup?_separated size (readValue? size depth) hclose blank_nil blank_nil rest
      items
      (fun x hx => ih x hx ((length_le_separated hx [',']).trans (by omega))) hsolid (by omega)
    rw [List.cons_append, List.append_assoc]
    exact readValue?_array hgroup
  | @object depth fields hfields ih =>
    intro rest _
    rw [write_object] at hsize ⊢
    have hsolid : ∀ x ∈ fields, Solid (writeField x) := fun x _ => solid_writeField x
    have hcount := length_le_length_separated hsolid [',']
    simp only [List.length_cons, List.length_append] at hsize
    have hfield : ∀ x ∈ fields, ∀ rest, EndsNumber rest →
        readField? size (readValue? size depth) (writeField x ++ rest) = some (x, rest) := by
      intro x hx rest hrest
      have hlength : (writeField x).length ≤ size := (length_le_separated hx [',']).trans (by omega)
      have hvalue : x.2.write.length ≤ (writeField x).length := by
        simp only [writeField, List.length_append, List.length_cons]
        omega
      exact readField?_writeField x hlength (ih x hx (hvalue.trans hlength) rest hrest)
    have hclose : Closes '\x7d' := .inr rfl
    have hgroup := readGroup?_separated size (readField? size (readValue? size depth)) hclose
      blank_nil blank_nil rest fields hfield (fun x _ => solid_writeField x) (by omega)
    rw [List.cons_append, List.append_assoc]
    exact readValue?_object hgroup

/-- **The compact layout of a value is read as the value.** -/
theorem parse?_compact {j : Json} (h : Fits maxDepth j) : parse? j.compact = some j := by
  have hread := readValue?_write h (Nat.le_succ j.write.length) [] endsNumber_nil
  rw [List.append_nil] at hread
  rw [parse?, compact, String.toList_ofList]
  simp only [hread]
  rfl

/-! ## Lists of texts -/

/-- A list of texts is nested no deeper than a list. -/
theorem fits_texts (depth : Nat) (texts : List String) :
    Fits (depth + 1) (.array (texts.map .text)) := by
  refine .array fun item hitem => ?_
  obtain ⟨value, -, rfl⟩ := List.mem_map.mp hitem
  exact .text value

/-- The values of texts are read. -/
theorem mapM_text? (texts : List String) : (texts.map text).mapM text? = some texts := by
  induction texts with
  | nil => rfl
  | cons value texts ih =>
    rw [List.map_cons, List.mapM_cons, ih]
    rfl

end CodeAtlas.Json

namespace CodeAtlas

/-- The bytes of a text are read as the text. -/
theorem fromUTF8?_toUTF8 (s : String) : String.fromUTF8? s.toUTF8 = some s :=
  dif_pos s.isValidUTF8

end CodeAtlas
