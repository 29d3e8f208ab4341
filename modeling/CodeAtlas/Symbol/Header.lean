import CodeAtlas.Text.Basic

/-!
# The header of a file

A source file is introduced by the comment at its start: its first two lines that say anything,
without the comment markers. A text file is introduced by its first two lines that are not blank.

* `sourceHeader` — the header of a source file.
* `textHeader` — the header of a text file.
-/

namespace CodeAtlas

open CodeAtlas.Text

namespace Header

/-- How many lines make a header. -/
def maxLines : Nat := 2

/-- How many characters of a line are kept. -/
def lineChars : Nat := 160

/-- The markers that open a comment of several lines, with those that close it. Of two that fit, the
first one counts. -/
def blockMarkers : List (List Char × List Char) :=
  [(['/', '*', '*'], ['*', '/']), (['/', '*'], ['*', '/']),
    (['"', '"', '"'], ['"', '"', '"']), (['\'', '\'', '\''], ['\'', '\'', '\''])]

/-- The markers of a comment of one line. Of two that fit, the first one counts. -/
def lineMarkers : List (List Char) :=
  [['/', '/', '/'], ['/', '/', '!'], ['/', '/'], ['#'], ['-', '-']]

/-- What follows the first of the markers that a line starts with, and what goes with that marker.
-/
def opened? {α : Type} (markers : List (List Char × α)) (line : List Char) :
    Option (List Char × α) :=
  markers.findSome? fun (marker, a) => (dropLead? marker line).map fun rest => (rest, a)

/-- The header with one more line, if the line says anything and there is room for it. -/
def push (header : List (List Char)) (line : List Char) : List (List Char) :=
  let line := Unicode.trim line
  if line.isEmpty || maxLines ≤ header.length then header
  else header ++ [line.take lineChars]

/-- What a line inside a comment of several lines says, and the closing marker if it is still
awaited. -/
def insideBlock (close line : List Char) : List Char × Option (List Char) :=
  match splitAtMark? close line with
  | some (body, _) => (body, none)
  | none => (line, some close)

/-- Reads on line by line; `awaited` is the marker that closes the comment of several lines one is
in. -/
def readLines (header : List (List Char)) (awaited : Option (List Char)) :
    List (List Char) → List (List Char)
  | [] => header
  | raw :: rest =>
    if maxLines ≤ header.length then header
    else
      let line := Unicode.trim raw
      match awaited with
      | some close =>
        let (body, awaited) := insideBlock close line
        readLines (push header (body.dropWhile (· = '*'))) awaited rest
      | none =>
        if line.isEmpty || ['#', '!'].isPrefixOf line then
          if header.isEmpty then readLines header none rest else header
        else
          match opened? blockMarkers line with
          | some (tail, close) =>
            let (body, awaited) := insideBlock close tail
            readLines (push header body) awaited rest
          | none =>
            match opened? (lineMarkers.map (·, ())) line with
            | some (tail, _) => readLines (push header tail) none rest
            | none => header

end Header

/-- The header of a source file: the first lines of its leading comment, joined by a space. -/
def sourceHeader (source : String) : String :=
  String.ofList (joinWords (Header.readLines [] none (charLines source.toList)))

/-- The header of a text file: its first lines that are not blank, joined by a space. -/
def textHeader (content : String) : String :=
  let spoken := ((charLines content.toList).map Unicode.trim).filter (!·.isEmpty)
  String.ofList (joinWords ((spoken.take Header.maxLines).map (·.take Header.lineChars)))

end CodeAtlas
