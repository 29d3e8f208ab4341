import CodeAtlas.Unicode.Blank
import CodeAtlas.Unicode.Case

/-!
# Lines, words and cuts

The small operations on text that everything else is made of. They work on lists of characters, and
a text is cut only between characters.

* `lines` — the lines of a text: a line ends with a line feed, and one carriage return before that
  line feed belongs to the ending. A carriage return anywhere else is an ordinary character.
* `blankWords` — the maximal runs of characters that are not blank.
* `collapse` — a text in lower case, with every run of blanks turned into one space.
* `truncate` — the first characters of a text.
-/

namespace CodeAtlas.Text

open CodeAtlas.Unicode

/-! ## Lines -/

/-- Puts `c` in front of the first chunk, or starts a chunk with it. A line feed always ends one. -/
def pushLineChar (c : Char) (chunks : List (List Char)) : List (List Char) :=
  if c = '\n' then [c] :: chunks
  else match chunks with
    | [] => [[c]]
    | chunk :: rest => (c :: chunk) :: rest

/-- The lines of a text with their endings; joined together they are the text. -/
def lineChunks (cs : List Char) : List (List Char) :=
  cs.foldr pushLineChar []

/-- A chunk without its line feed, and without the carriage return before it. -/
def chomp (chunk : List Char) : List Char :=
  match chunk.reverse with
  | '\n' :: '\r' :: rest => rest.reverse
  | '\n' :: rest => rest.reverse
  | _ => chunk

/-- The lines of a list of characters. -/
def charLines (cs : List Char) : List (List Char) :=
  (lineChunks cs).map chomp

/-- The lines of a text. A line feed at the very end starts no further line. -/
def lines (s : String) : List String :=
  (charLines s.toList).map String.ofList

/-! ## Words between blanks -/

/-- Adds `c` to the words to its right; the flag says whether `c` touches the first of them. -/
def pushWordChar (c : Char) : Bool × List (List Char) → Bool × List (List Char)
  | (touching, words) =>
    if isBlank c then (false, words)
    else match touching, words with
      | true, word :: rest => (true, (c :: word) :: rest)
      | _, words => (true, [c] :: words)

/-- The maximal runs of non-blank characters, in order. -/
def blankWords (cs : List Char) : List (List Char) :=
  (cs.foldr pushWordChar (false, [])).2

/-- Words joined by single spaces. -/
def joinWords (words : List (List Char)) : List Char :=
  List.intercalate [' '] words

/-- The text in lower case, trimmed, with every run of blanks turned into one space. -/
def collapse (s : String) : String :=
  lowercase (String.ofList (joinWords (blankWords s.toList)))

/-! ## Cuts -/

/-- The first `n` characters of a text; all of it when it is shorter. -/
def truncate (s : String) (n : Nat) : String :=
  String.ofList (s.toList.take n)

/-- The text without the blanks at either end. -/
def trim (s : String) : String :=
  String.ofList (Unicode.trim s.toList)

/-- The text without the blanks at its end. -/
def trimEnd (s : String) : String :=
  String.ofList (Unicode.trimEnd s.toList)

/-- What is left of `cs` after the characters `lead`, if it starts with them. -/
def dropLead? : List Char → List Char → Option (List Char)
  | [], cs => some cs
  | _ :: _, [] => none
  | l :: lead, c :: cs => if l = c then dropLead? lead cs else none

/-- The characters before the first place where `mark` starts, and those after it. -/
def splitAtMark? (mark : List Char) : List Char → Option (List Char × List Char)
  | [] => if mark.isEmpty then some ([], []) else none
  | c :: cs =>
    match dropLead? mark (c :: cs) with
    | some rest => some ([], rest)
    | none => (splitAtMark? mark cs).map fun (before, after) => (c :: before, after)

/-- Whether `piece` occurs in `cs`. -/
def occursIn (piece cs : List Char) : Bool :=
  (splitAtMark? piece cs).isSome

/-- The pieces of a list between the occurrences of `sep`, empty ones included. -/
def piecesAt {α : Type} [DecidableEq α] (sep : α) (xs : List α) : List (List α) :=
  xs.foldr
    (fun x pieces =>
      if x = sep then [] :: pieces
      else match pieces with
        | [] => [[x]]
        | piece :: rest => (x :: piece) :: rest)
    [[]]

/-- The pieces of `cs` between the occurrences of `sep`, empty ones included. -/
def splitOnChar (sep : Char) (cs : List Char) : List (List Char) :=
  piecesAt sep cs

/-- Like `splitOnChar`, on texts. -/
def splitOn (sep : Char) (s : String) : List String :=
  (splitOnChar sep s.toList).map String.ofList

/-- Whether `s` starts with `lead`. -/
def startsWith (s lead : String) : Bool :=
  lead.toList.isPrefixOf s.toList

/-- Whether `s` ends with `tail`. -/
def endsWith (s tail : String) : Bool :=
  tail.toList.isSuffixOf s.toList

/-- What is left of `s` after `lead`, if it starts with it. -/
def dropStart? (s lead : String) : Option String :=
  (dropLead? lead.toList s.toList).map String.ofList

end CodeAtlas.Text
