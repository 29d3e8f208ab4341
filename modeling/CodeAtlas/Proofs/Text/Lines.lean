import CodeAtlas.Text.Basic
import CodeAtlas.Proofs.Path.Names

/-!
# Reading a text line by line

The first line of a text ends before its first line feed, and the lines behind it are the lines of
what is left (`charLines_eq`). The carriage return that a line's ending may have is blank, so it
does not show in the trimmed line. A mark of two different characters is found behind everything
that does not have it.
-/

namespace CodeAtlas.Unicode

/-! ## Trimming -/

variable {c : Char}

theorem trimStart_append_cons (hc : isBlank c = false) (xs ys : List Char) :
    trimStart (xs ++ c :: ys) = trimStart xs ++ c :: ys := by
  simp only [trimStart, List.dropWhile_append]
  split
  · next h => simp [List.isEmpty_iff.1 h, hc]
  · rfl

theorem trimEnd_append_cons (hc : isBlank c = false) (xs ys : List Char) :
    trimEnd (xs ++ c :: ys) = xs ++ c :: trimEnd ys := by
  have h := trimStart_append_cons hc ys.reverse xs.reverse
  simp only [trimStart] at h
  simp [trimEnd, h]

/-- What stands on either side of a character that is not blank is trimmed on its outer side only.
-/
theorem trim_append_cons (hc : isBlank c = false) (xs ys : List Char) :
    trim (xs ++ c :: ys) = trimStart xs ++ c :: trimEnd ys := by
  rw [trim, trimStart_append_cons hc, trimEnd_append_cons hc]

theorem trimStart_suffix (cs : List Char) : trimStart cs <:+ cs :=
  List.dropWhile_suffix _

theorem isPrefix_trimEnd (cs : List Char) : trimEnd cs <+: cs := by
  rw [← List.reverse_suffix, trimEnd, List.reverse_reverse]
  exact List.dropWhile_suffix _

theorem trim_infix (cs : List Char) : trim cs <:+: cs :=
  (isPrefix_trimEnd _).isInfix.trans (trimStart_suffix cs).isInfix

theorem trim_concat_blank (hc : isBlank c = true) (xs : List Char) :
    trim (xs ++ [c]) = trim xs := by
  simp only [trim, trimStart, List.dropWhile_append]
  split
  · next h => simp [List.isEmpty_iff.1 h, hc]
  · simp [trimEnd, hc]

end CodeAtlas.Unicode

namespace CodeAtlas.Text

open CodeAtlas.Unicode

/-! ## Lines -/

/-- What stands before the first line feed. -/
def headLine (cs : List Char) : List Char :=
  cs.takeWhile (· ≠ '\n')

/-- What stands behind the first line feed. -/
def afterLine (cs : List Char) : List Char :=
  (cs.dropWhile (· ≠ '\n')).tail

section Lines

variable {line : List Char} (h : '\n' ∉ line) (cs : List Char)
include h

theorem headLine_append : headLine (line ++ cs) = line ++ headLine cs := by
  apply List.takeWhile_append_of_pos
  intro c hc
  simpa using fun heq : c = '\n' => h (heq ▸ hc)

theorem afterLine_append : afterLine (line ++ cs) = afterLine cs := by
  have hdrop : (line ++ cs).dropWhile (· ≠ '\n') = cs.dropWhile (· ≠ '\n') := by
    apply List.dropWhile_append_of_pos
    intro c hc
    simpa using fun heq : c = '\n' => h (heq ▸ hc)
  rw [afterLine, hdrop, afterLine]

theorem lineChunks_append :
    lineChunks (line ++ '\n' :: cs) = (line ++ ['\n']) :: lineChunks cs := by
  induction line with
  | nil => rfl
  | cons c line ih =>
    rw [List.mem_cons, not_or] at h
    obtain ⟨hc, hline⟩ := h
    have step :
        lineChunks (c :: line ++ '\n' :: cs) = pushLineChar c (lineChunks (line ++ '\n' :: cs)) :=
      rfl
    rw [step, ih hline, pushLineChar, if_neg (Ne.symm hc)]
    rfl

omit cs in
theorem lineChunks_of_not_mem (hne : line ≠ []) : lineChunks line = [line] := by
  induction line with
  | nil => exact absurd rfl hne
  | cons c line ih =>
    rw [List.mem_cons, not_or] at h
    obtain ⟨hc, hline⟩ := h
    have step : lineChunks (c :: line) = pushLineChar c (lineChunks line) := rfl
    cases line with
    | nil => exact if_neg (Ne.symm hc)
    | cons d line => rw [step, ih hline (List.cons_ne_nil _ _), pushLineChar, if_neg (Ne.symm hc)]

omit cs in
theorem chomp_of_not_mem : chomp line = line := by
  unfold chomp
  split
  · next rest heq => exact absurd (List.mem_reverse.1 (by rw [heq]; simp)) h
  · next rest _ heq => exact absurd (List.mem_reverse.1 (by rw [heq]; simp)) h
  · rfl

end Lines

/-- The ending of a line is blank, carriage return or not. -/
theorem trim_chomp (line : List Char) :
    Unicode.trim (chomp (line ++ ['\n'])) = Unicode.trim line := by
  unfold chomp
  split
  · next rest heq =>
    have hline : line = rest.reverse ++ ['\r'] := by
      rw [← List.reverse_reverse line]
      simp_all
    rw [hline, trim_concat_blank rfl]
  · next rest _ heq =>
    have hline : line = rest.reverse := by
      rw [← List.reverse_reverse line]
      simp_all
    rw [hline]
  · exact trim_concat_blank rfl line

/-- The lines of a text are its first line, up to blanks at its end, and the lines of what stands
behind it. -/
theorem charLines_eq (cs : List Char) (hne : cs ≠ []) :
    ∃ line, charLines cs = line :: charLines (afterLine cs) ∧
      Unicode.trim line = Unicode.trim (headLine cs) := by
  by_cases h : '\n' ∈ cs
  · obtain ⟨line, rest, rfl, hline⟩ := List.eq_append_cons_of_mem h
    refine ⟨chomp (line ++ ['\n']), ?_, ?_⟩
    · rw [afterLine_append hline, charLines, lineChunks_append hline]
      rfl
    · rw [headLine_append hline, trim_chomp]
      simp [headLine]
  · refine ⟨cs, ?_, ?_⟩
    · have hafter := afterLine_append h []
      rw [List.append_nil] at hafter
      rw [hafter, charLines, lineChunks_of_not_mem h hne, List.map_singleton, chomp_of_not_mem h]
      rfl
    · have hfirst := headLine_append h []
      rw [List.append_nil] at hfirst
      rw [hfirst, headLine, List.takeWhile_nil, List.append_nil]

theorem charLines_append (line : List Char) (h : '\n' ∉ line) (rest : List Char) :
    ∃ raw, charLines (line ++ '\n' :: rest) = raw :: charLines rest ∧
      Unicode.trim raw = Unicode.trim line := by
  obtain ⟨raw, hlines, htrim⟩ := charLines_eq (line ++ '\n' :: rest) (by simp)
  rw [headLine_append h] at htrim
  rw [afterLine_append h] at hlines
  exact ⟨raw, hlines, by simpa [headLine] using htrim⟩

/-! ## Marks -/

theorem dropLead?_eq_none_iff {lead cs : List Char} : dropLead? lead cs = none ↔ ¬ lead <+: cs := by
  rw [Option.eq_none_iff_forall_ne_some, List.IsPrefix, not_exists]
  refine forall_congr' fun rest => not_congr ?_
  rw [Path.dropLead?_eq_some_iff, eq_comm]

theorem splitAtMark?_eq_none_iff {mark cs : List Char} : splitAtMark? mark cs = none ↔
    ¬ mark <:+: cs := by
  induction cs with
  | nil => simp [splitAtMark?]
  | cons c cs ih =>
    rw [splitAtMark?, List.infix_cons_iff, not_or, ← dropLead?_eq_none_iff, ← ih]
    cases dropLead? mark (c :: cs) <;> simp

/-- A mark of two different characters does not overlap with itself, so it is found where it is put.
-/
theorem splitAtMark?_append {a b : Char} (hab : a ≠ b) {before : List Char}
    (h : ¬ [a, b] <:+: before) (after : List Char) :
    splitAtMark? [a, b] (before ++ a :: b :: after) = some (before, after) := by
  induction before with
  | nil => simp [splitAtMark?, dropLead?]
  | cons c before ih =>
    rw [List.infix_cons_iff, not_or] at h
    obtain ⟨hhere, hlater⟩ := h
    have hnone : dropLead? [a, b] (c :: before ++ a :: b :: after) = none := by
      rw [dropLead?_eq_none_iff]
      cases before with
      | nil => simp [hab.symm]
      | cons d before => simpa using hhere
    rw [List.cons_append] at hnone ⊢
    rw [splitAtMark?, hnone]
    simp [ih hlater]

end CodeAtlas.Text
