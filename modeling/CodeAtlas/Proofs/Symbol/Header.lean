import CodeAtlas.Symbol.Header
import CodeAtlas.Proofs.Text.Lines

/-!
# What the header of a source file comes from

A file that starts with a comment of several lines is introduced by what stands in the comment:
whatever is written behind the closing marker, the header is the same, as long as the line after the
one in which the comment ends does not start another comment. There is one comment of which this is
not true, the empty one: in `/**/` the longer opening marker takes the star of the closing marker,
so the comment is not closed and what follows is read as if it were the comment
(**`header_of_leading_comment`**).
-/

namespace CodeAtlas

open CodeAtlas.Text

namespace Header

/-! ## What starts a comment -/

/-- What a line starts with to be read as a comment or passed over. -/
def markers : List (List Char) :=
  blockMarkers.map (·.1) ++ lineMarkers ++ [['#', '!']]

/-- Behind the line that it begins with, the text does not start with a comment: its first line that
is not blank begins with no marker. -/
def Silent (rest : List Char) : Prop :=
  ∀ line, ((charLines (afterLine rest)).map Unicode.trim).find? (!·.isEmpty) = some line →
    ∀ marker ∈ markers, ¬ marker <+: line

theorem silent_of_not_mem {rest : List Char} (h : '\n' ∉ rest) : Silent rest := by
  intro line hline
  have hafter : afterLine rest = [] := by
    rw [← List.append_nil rest, afterLine_append h]
    rfl
  rw [hafter] at hline
  cases hline

theorem silent_nil : Silent [] :=
  silent_of_not_mem List.not_mem_nil

theorem opened?_eq_none {α : Type} {marks : List (List Char × α)} {line : List Char}
    (h : ∀ mark ∈ marks, ¬ mark.1 <+: line) : opened? marks line = none := by
  rw [opened?, List.findSome?_eq_none_iff]
  intro mark hmark
  rw [Option.map_eq_none_iff, dropLead?_eq_none_iff]
  exact h mark hmark

/-- What the comment says, without the star that belongs to the longer opening marker. -/
def afterStar : List Char → List Char
  | '*' :: body => body
  | body => body

theorem opened?_slash_star (body : List Char) :
    opened? blockMarkers ('/' :: '*' :: body) = some (afterStar body, ['*', '/']) := by
  cases body with
  | nil => rfl
  | cons c body =>
    by_cases hc : c = '*'
    · subst hc
      rfl
    · simp [opened?, blockMarkers, dropLead?, Ne.symm hc, afterStar, hc]

theorem afterStar_append {body : List Char} (hne : body ≠ []) (rest : List Char) :
    afterStar (body ++ rest) = afterStar body ++ rest := by
  cases body with
  | nil => exact absurd rfl hne
  | cons c body =>
    by_cases hc : c = '*'
    · subst hc
      rfl
    · simp [afterStar, hc]

theorem afterStar_suffix (body : List Char) : afterStar body <:+ body := by
  unfold afterStar
  split
  · exact List.suffix_cons _ _
  · exact List.suffix_rfl

/-! ## One line after the other -/

section Steps

variable {header : List (List Char)}

theorem readLines_full (hfull : maxLines ≤ header.length) (awaited : Option (List Char))
    (ls : List (List Char)) : readLines header awaited ls = header := by
  cases ls with
  | nil => rfl
  | cons raw ls => rw [readLines, if_pos hfull]

/-- Outside of comments the header does not change any more. -/
theorem readLines_silent (ls : List (List Char))
    (h : ∀ line, (ls.map Unicode.trim).find? (!·.isEmpty) = some line →
      ∀ marker ∈ markers, ¬ marker <+: line) :
    readLines header none ls = header := by
  induction ls with
  | nil => rfl
  | cons raw ls ih =>
    rw [readLines]
    by_cases hblank : (Unicode.trim raw).isEmpty = true
    · have hlater := ih fun line hline => h line (by simpa [List.find?_cons, hblank] using hline)
      simp [hblank, hlater]
    · have hmarkers := h (Unicode.trim raw) (by simp [hblank])
      have hbang : ¬ ['#', '!'] <+: Unicode.trim raw := hmarkers _ (by simp [markers])
      have hblock : opened? blockMarkers (Unicode.trim raw) = none := by
        apply opened?_eq_none
        intro mark hmark
        exact hmarkers _ (by simp [markers, List.mem_map_of_mem hmark])
      have hline : opened? (lineMarkers.map (·, ())) (Unicode.trim raw) = none := by
        apply opened?_eq_none
        intro mark hmark
        obtain ⟨marker, hmarker, rfl⟩ := List.mem_map.1 hmark
        exact hmarkers _ (by simp [markers, hmarker])
      simp [hblank, hbang, hblock, hline]

/-- A line that is wholly inside the comment is pushed without the stars before it. -/
theorem readLines_inside (hroom : ¬ maxLines ≤ header.length) {line : List Char}
    (hline : '\n' ∉ line) (hmark : ¬ ['*', '/'] <:+: line) (rest : List Char) :
    readLines header (some ['*', '/']) (charLines (line ++ '\n' :: rest)) =
      readLines (push header ((Unicode.trim line).dropWhile (· = '*'))) (some ['*', '/'])
        (charLines rest) := by
  obtain ⟨raw, hlines, htrim⟩ := charLines_append line hline rest
  have hnone : splitAtMark? ['*', '/'] (Unicode.trim line) = none := by
    rw [splitAtMark?_eq_none_iff]
    exact fun h => hmark (h.trans (Unicode.trim_infix line))
  rw [hlines, readLines, if_neg hroom, htrim]
  simp only [insideBlock, hnone]

/-- The line in which a comment ends. -/
theorem charLines_closing (line : List Char) (hline : '\n' ∉ line) (rest : List Char) :
    ∃ raw, charLines (line ++ '*' :: '/' :: rest) = raw :: charLines (afterLine rest) ∧
      Unicode.trim raw = Unicode.trimStart line ++
        '*' :: '/' :: Unicode.trimEnd (headLine rest) := by
  obtain ⟨raw, hlines, htrim⟩ := charLines_eq (line ++ '*' :: '/' :: rest) (by simp)
  have hslash : Unicode.trimEnd ('/' :: headLine rest) = '/' :: Unicode.trimEnd (headLine rest) :=
    Unicode.trimEnd_append_cons rfl [] (headLine rest)
  have hfirst : headLine ('*' :: '/' :: rest) = '*' :: '/' :: headLine rest := rfl
  rw [afterLine_append hline] at hlines
  rw [headLine_append hline, hfirst, Unicode.trim_append_cons rfl, hslash] at htrim
  exact ⟨raw, hlines, htrim⟩

/-- The line in which the comment ends gives what stands before the mark; what stands behind it does
not show. -/
theorem readLines_closing (hroom : ¬ maxLines ≤ header.length) {line : List Char}
    (hline : '\n' ∉ line)
    (hmark : ¬ ['*', '/'] <:+: line) {rest : List Char} (hrest : Silent rest) :
    readLines header (some ['*', '/']) (charLines (line ++ '*' :: '/' :: rest)) =
      push header ((Unicode.trimStart line).dropWhile (· = '*')) := by
  obtain ⟨raw, hlines, htrim⟩ := charLines_closing line hline rest
  have hsplit := splitAtMark?_append (a := '*') (b := '/') (by decide)
    (fun h => hmark (h.trans (Unicode.trimStart_suffix line).isInfix))
      (Unicode.trimEnd (headLine rest))
  rw [hlines, readLines, if_neg hroom, htrim]
  simp only [insideBlock, hsplit]
  exact readLines_silent _ hrest

/-- The line that opens the comment is read behind the marker. -/
theorem readLines_opening {raw body : List Char} (htrim : Unicode.trim raw = '/' :: '*' :: body)
    (ls : List (List Char)) :
    readLines [] none (raw :: ls) =
      readLines (push [] (insideBlock ['*', '/'] (afterStar body)).1)
        (insideBlock ['*', '/'] (afterStar body)).2 ls := by
  rw [readLines, htrim]
  simp [maxLines, opened?_slash_star]

/-- A comment that goes on behind its first line. -/
theorem readLines_opening_line {line : List Char} (hline : '\n' ∉ line)
    (hmark : ¬ ['*', '/'] <:+: line) (rest : List Char) :
    readLines [] none (charLines ('/' :: '*' :: (line ++ '\n' :: rest))) =
      readLines (push [] (afterStar (Unicode.trimEnd line))) (some ['*', '/'])
        (charLines rest) := by
  obtain ⟨raw, hlines, htrim⟩ := charLines_append ('/' :: '*' :: line) (by simp [hline]) rest
  have hraw : Unicode.trim raw = '/' :: '*' :: Unicode.trimEnd line := by
    rw [htrim]
    exact (Unicode.trim_append_cons (c := '/') rfl [] ('*' :: line)).trans
      (congrArg ('/' :: ·) (Unicode.trimEnd_append_cons (c := '*') rfl [] line))
  have hnone : splitAtMark? ['*', '/'] (afterStar (Unicode.trimEnd line)) = none := by
    have hpart := (afterStar_suffix (Unicode.trimEnd line)).isInfix.trans
      (Unicode.isPrefix_trimEnd line).isInfix
    rw [splitAtMark?_eq_none_iff]
    exact fun h => hmark (h.trans hpart)
  rw [List.cons_append, List.cons_append] at hlines
  rw [hlines, readLines_opening hraw, insideBlock, hnone]

/-- A comment that ends in its first line, and is not empty. -/
theorem readLines_opening_closed {line : List Char} (hne : line ≠ []) (hline : '\n' ∉ line)
    (hmark : ¬ ['*', '/'] <:+: line) {rest : List Char} (hrest : Silent rest) :
    readLines [] none (charLines ('/' :: '*' :: (line ++ '*' :: '/' :: rest))) =
      push [] (afterStar line) := by
  obtain ⟨raw, hlines, htrim⟩ := charLines_closing ('/' :: '*' :: line) (by simp [hline]) rest
  have hraw : Unicode.trim raw =
      '/' :: '*' :: (line ++ '*' :: '/' :: Unicode.trimEnd (headLine rest)) := htrim
  have hsplit := splitAtMark?_append (a := '*') (b := '/') (by decide)
    (fun h => hmark (h.trans (afterStar_suffix line).isInfix)) (Unicode.trimEnd (headLine rest))
  rw [List.cons_append, List.cons_append] at hlines
  -- the line is not empty, so the star that the longer marker takes is not that of the closing
  -- marker
  rw [hlines, readLines_opening hraw, afterStar_append hne, insideBlock, hsplit]
  exact readLines_silent _ hrest

end Steps

/-! ## The whole comment -/

/-- From a place inside the comment on, the header is that of the comment alone. -/
theorem readLines_body (header : List (List Char)) {body : List Char}
    (hmark : ¬ ['*', '/'] <:+: body) {rest : List Char} (hrest : Silent rest) :
    readLines header (some ['*', '/']) (charLines (body ++ '*' :: '/' :: rest)) =
      readLines header (some ['*', '/']) (charLines (body ++ ['*', '/'])) := by
  -- on the length of the body: each of its lines leaves a shorter one
  induction hlength : body.length using Nat.strong_induction_on generalizing header body with
  | _ n ih =>
    by_cases hfull : maxLines ≤ header.length
    · rw [readLines_full hfull, readLines_full hfull]
    by_cases hfeed : '\n' ∈ body
    · obtain ⟨line, later, rfl, hline⟩ := List.eq_append_cons_of_mem hfeed
      have hmarkLine : ¬ ['*', '/'] <:+: line :=
        fun h => hmark (h.trans (List.prefix_append line _).isInfix)
      have hmarkLater : ¬ ['*', '/'] <:+: later :=
        fun h => hmark (h.trans ⟨line ++ ['\n'], [], by simp⟩)
      have hshorter : later.length < n := by
        rw [← hlength]
        simp
        omega
      rw [List.append_assoc, List.append_assoc, List.cons_append, List.cons_append,
        readLines_inside hfull hline hmarkLine, readLines_inside hfull hline hmarkLine]
      exact ih _ hshorter _ hmarkLater rfl
    · rw [readLines_closing hfull hfeed hmark hrest, readLines_closing hfull hfeed hmark silent_nil]

/-- The header of a comment that is not empty is that of the comment alone. -/
theorem readLines_comment {body : List Char} (hne : body ≠ []) (hmark : ¬ ['*', '/'] <:+: body)
    {rest : List Char} (hrest : Silent rest) :
    readLines [] none (charLines ('/' :: '*' :: (body ++ '*' :: '/' :: rest))) =
      readLines [] none (charLines ('/' :: '*' :: (body ++ ['*', '/']))) := by
  by_cases hfeed : '\n' ∈ body
  · obtain ⟨line, later, rfl, hline⟩ := List.eq_append_cons_of_mem hfeed
    have hmarkLine : ¬ ['*', '/'] <:+: line :=
      fun h => hmark (h.trans (List.prefix_append line _).isInfix)
    have hmarkLater : ¬ ['*', '/'] <:+: later :=
      fun h => hmark (h.trans ⟨line ++ ['\n'], [], by simp⟩)
    rw [List.append_assoc, List.append_assoc, List.cons_append, List.cons_append,
      readLines_opening_line hline hmarkLine, readLines_opening_line hline hmarkLine]
    exact readLines_body _ hmarkLater hrest
  · rw [readLines_opening_closed hne hfeed hmark hrest,
      readLines_opening_closed hne hfeed hmark silent_nil]

/-! ## How long a header is -/

/-- A header of a few short lines. -/
structure Brief (header : List (List Char)) : Prop where
  lines_le : header.length ≤ maxLines
  chars_le : ∀ line ∈ header, line.length ≤ lineChars

theorem Brief.push {header : List (List Char)} (h : Brief header) (line : List Char) :
    Brief (push header line) := by
  simp only [Header.push]
  split
  · exact h
  · next hroom =>
    rw [Bool.or_eq_true, not_or, decide_eq_true_eq, not_le] at hroom
    refine ⟨?_, ?_⟩
    · rw [List.length_append, List.length_singleton]
      exact hroom.2
    · intro piece hpiece
      obtain hpiece | hpiece := List.mem_append.1 hpiece
      · exact h.chars_le piece hpiece
      · rw [List.mem_singleton.1 hpiece]
        exact List.length_take_le _ _

theorem Brief.readLines {header : List (List Char)} (h : Brief header)
    (awaited : Option (List Char))
    (ls : List (List Char)) : Brief (readLines header awaited ls) := by
  fun_induction Header.readLines header awaited ls <;> grind [Brief.push]

end Header

/-- **What is written behind the leading comment does not show in the header**, whatever the comment
says and whatever follows that does not itself begin with a comment, exactly if the comment is not
empty. Every header is made of a few short lines. -/
theorem header_of_leading_comment (body source : String) :
    (¬ "*/".toList <:+: body.toList →
      ((∀ rest rest' : String, Header.Silent rest.toList → Header.Silent rest'.toList →
        sourceHeader ("/*" ++ body ++ "*/" ++ rest) = sourceHeader ("/*" ++ body ++ "*/" ++ rest'))
          ↔
          body ≠ "")) ∧
      ∃ pieces : List String, sourceHeader source = " ".intercalate pieces ∧
        pieces.length ≤ 2 ∧ ∀ piece ∈ pieces, piece.length ≤ 160 := by
  refine ⟨fun hmark => ⟨?_, ?_⟩, ?_⟩
  · rintro hsame rfl
    have hleak := hsame "a" "b" (Header.silent_of_not_mem (by decide))
      (Header.silent_of_not_mem (by decide))
    revert hleak
    decide
  · intro hne rest rest' hrest hrest'
    have hbody : body.toList ≠ [] := by simpa using hne
    have htext : ∀ rest : String, ("/*" ++ body ++ "*/" ++ rest).toList =
        '/' :: '*' :: (body.toList ++ '*' :: '/' :: rest.toList) := by
      intro rest
      simp
    rw [sourceHeader, sourceHeader, htext, htext, Header.readLines_comment hbody hmark hrest,
      Header.readLines_comment hbody hmark hrest']
  · have hbrief : Header.Brief (Header.readLines [] none (charLines source.toList)) :=
      Header.Brief.readLines ⟨Nat.zero_le _, by simp⟩ _ _
    refine ⟨(Header.readLines [] none (charLines source.toList)).map String.ofList, ?_, ?_, ?_⟩
    · rw [sourceHeader, ← String.toList_inj, String.toList_intercalate]
      simp [joinWords, Function.comp_def]
    · rw [List.length_map]
      exact hbrief.lines_le
    · intro piece hpiece
      obtain ⟨line, hline, rfl⟩ := List.mem_map.1 hpiece
      rw [String.length_ofList]
      exact hbrief.chars_le line hline

/-- The empty comment has no mark in it, and the header shows what is written behind it. -/
theorem header_of_leading_comment_empty :
    ¬ "*/".toList <:+: "".toList ∧
      ¬ ∀ rest rest' : String, Header.Silent rest.toList → Header.Silent rest'.toList →
        sourceHeader ("/*" ++ "" ++ "*/" ++ rest) = sourceHeader ("/*" ++ "" ++ "*/" ++ rest') :=
  ⟨by decide, fun hsame => ((header_of_leading_comment "" "").1 (by decide)).1 hsame rfl⟩

example : sourceHeader "/**/ use a;\nuse b;\n" = "/ use a; use b;" := by decide

end CodeAtlas
