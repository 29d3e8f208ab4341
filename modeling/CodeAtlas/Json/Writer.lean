import CodeAtlas.Json.Basic
import CodeAtlas.Text.Quoted

/-!
# Writing JSON

Two layouts are written: the compact one, without any blank, and the indented one, with one item per
line and two more spaces per level. In both, a text escapes the quote, the backslash and the control
characters, and nothing else.
-/

namespace CodeAtlas.Json

open CodeAtlas.Text.Quoted (hexDigits)

/-- The escaped form of one character of a text. -/
def escapeChar (c : Char) : List Char :=
  if c = '"' then ['\\', '"']
  else if c = '\\' then ['\\', '\\']
  else if c.toNat = 8 then ['\\', 'b']
  else if c.toNat = 12 then ['\\', 'f']
  else if c = '\n' then ['\\', 'n']
  else if c = '\r' then ['\\', 'r']
  else if c = '\t' then ['\\', 't']
  else if c.toNat < 16 then ['\\', 'u', '0', '0', '0'] ++ hexDigits c.toNat
  else if c.toNat < 32 then ['\\', 'u', '0', '0'] ++ hexDigits c.toNat
  else [c]

/-- A text between quotes. -/
def writeText (s : String) : List Char :=
  '"' :: s.toList.flatMap escapeChar ++ ['"']

/-- Lists of characters with `sep` between them. -/
def separated (sep : List Char) : List (List Char) → List Char
  | [] => []
  | [x] => x
  | x :: y :: rest => x ++ sep ++ separated sep (y :: rest)

/-- The compact layout. -/
def write : Json → List Char
  | .null => "null".toList
  | .bool true => "true".toList
  | .bool false => "false".toList
  | .number l => l.chars
  | .text s => writeText s
  | .array items => '[' :: separated [','] (items.attach.map fun ⟨x, _⟩ => write x) ++ [']']
  | .object fields =>
    '\x7b' :: separated [','] (fields.attach.map fun ⟨(name, x), _⟩ =>
      writeText name ++ ':' :: write x) ++ ['\x7d']
termination_by j => sizeOf j
decreasing_by
  · next h => have := List.sizeOf_lt_of_mem h; simp; omega
  · next h => have := List.sizeOf_lt_of_mem h; simp at this ⊢; omega

/-- The text of a value in the compact layout. -/
def compact (j : Json) : String :=
  String.ofList j.write

/-- A line feed and the blanks of a level. -/
def newline (level : Nat) : List Char :=
  '\n' :: List.replicate (2 * level) ' '

/-- The indented layout, inside `level` brackets. An empty array or object stays on its line. -/
def writeIndented (level : Nat) : Json → List Char
  | .array [] => ['[', ']']
  | .array (item :: items) =>
    '[' :: newline (level + 1) ++
      separated (',' :: newline (level + 1))
        ((item :: items).attach.map fun ⟨x, _⟩ => writeIndented (level + 1) x) ++
      newline level ++ [']']
  | .object [] => ['\x7b', '\x7d']
  | .object (first :: rest) =>
    '\x7b' :: newline (level + 1) ++
      separated (',' :: newline (level + 1))
        ((first :: rest).attach.map fun ⟨(name, x), _⟩ =>
          writeText name ++ ':' :: ' ' :: writeIndented (level + 1) x) ++
      newline level ++ ['\x7d']
  | j => j.write
termination_by j => sizeOf j
decreasing_by
  · next h => have := List.sizeOf_lt_of_mem h; simp at this ⊢; omega
  · next h => have := List.sizeOf_lt_of_mem h; simp at this ⊢; omega

/-- The text of a value in the indented layout. -/
def indented (j : Json) : String :=
  String.ofList (j.writeIndented 0)

end CodeAtlas.Json
