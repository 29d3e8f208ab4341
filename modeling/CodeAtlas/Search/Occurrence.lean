import CodeAtlas.Symbol.Kind
import CodeAtlas.Text.Basic
import CodeAtlas.Unicode.Blank
import CodeAtlas.Unicode.Word

/-!
# Occurrences of a name

A line *mentions* a name where the name stands between word boundaries; if what it names can be
called, an opening parenthesis must follow. A line that declares something is told by its first
words.

* `mentions` — whether a line mentions a name.
* `isDefinition` — whether a line declares something.
-/

namespace CodeAtlas

open CodeAtlas.Text CodeAtlas.Unicode

/-- Whether a word starts or ends between two neighbouring characters. -/
def isBoundary (before after : Option Char) : Bool :=
  before.any isWordChar != after.any isWordChar

/-- Whether what follows a name at a place makes it a mention. -/
def mentionEnds (callable : Bool) (last : Option Char) (rest : List Char) : Bool :=
  if callable then (rest.dropWhile isBlank).head? = some '('
  else isBoundary last rest.head?

/-- Whether the name is mentioned at the start of `cs`, after the character `before`. -/
def mentionsHere (name : List Char) (callable : Bool) (before : Option Char) (cs : List Char) :
    Bool :=
  isBoundary before cs.head? &&
    match dropLead? name cs with
    | some rest => mentionEnds callable (name.getLast?.or before) rest
    | none => false

/-- Whether the name is mentioned anywhere in `cs`, after the character `before`. -/
def mentionsFrom (name : List Char) (callable : Bool) : Option Char → List Char → Bool
  | before, [] => mentionsHere name callable before []
  | before, c :: cs =>
    mentionsHere name callable before (c :: cs) || mentionsFrom name callable (some c) cs

/-- Whether a line mentions a name of some kind. -/
def mentions (name : String) (kind : SymbolKind) (line : String) : Bool :=
  mentionsFrom name.toList kind.isCallable none line.toList

/-! ## Definitions -/

/-- What follows one or more blanks. -/
def afterBlanks? : List Char → Option (List Char)
  | [] => none
  | c :: cs => if isBlank c then some (cs.dropWhile isBlank) else none

/-- What follows one of the words and the blanks after it. -/
def afterWord? (words : List String) (cs : List Char) : Option (List Char) :=
  words.findSome? fun word => (dropLead? word.toList cs).bind afterBlanks?

/-- What follows a parenthesis, if there is one; a parenthesis that is not closed is none. -/
def afterParenthesis (cs : List Char) : List Char :=
  match cs with
  | '(' :: inner =>
    match inner.dropWhile (· ≠ ')') with
    | _ :: rest => rest
    | [] => cs
  | _ => cs

/-- What follows a mark of visibility, which may be narrowed in parentheses. -/
def afterVisibility? (cs : List Char) : Option (List Char) :=
  (dropLead? "pub".toList cs).bind fun rest => afterBlanks? (afterParenthesis rest)

/-- The words that may stand before a keyword. -/
def modifiers : List String :=
  ["async", "static", "abstract", "unsafe", "extern", "public", "private", "protected"]

/-- What follows any number of modifiers; `fuel` is at least their number. -/
def afterModifiers : Nat → List Char → List Char
  | 0, cs => cs
  | fuel + 1, cs =>
    match afterWord? modifiers cs with
    | some rest => afterModifiers fuel rest
    | none => cs

/-- The words that declare something. -/
def definitionKeywords : List String :=
  ["fn", "function", "def", "func", "class", "struct", "enum", "trait", "interface", "type", "impl"]

/-- Whether a keyword stands at the start, as a whole word. -/
def startsWithKeyword (cs : List Char) : Bool :=
  definitionKeywords.any fun word =>
    match dropLead? word.toList cs with
    | some rest => !rest.head?.any isWordChar
    | none => false

/-- Whether a line declares something. -/
def isDefinition (line : String) : Bool :=
  let cs := line.toList.dropWhile isBlank
  let cs := (afterWord? ["export"] cs).getD cs
  let cs := (afterWord? ["default"] cs).getD cs
  let cs := (afterVisibility? cs).getD cs
  startsWithKeyword (afterModifiers cs.length cs)

end CodeAtlas
