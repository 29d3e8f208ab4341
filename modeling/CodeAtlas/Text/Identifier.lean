import CodeAtlas.Text.Basic
import CodeAtlas.Unicode.Letter
import Std.Data.TreeSet

/-!
# Splitting identifiers into words

A programmer's name is several words written as one. They are told apart by the separators of the
code (underscores, slashes, `::`, `->` and everything else that is neither a letter nor a digit), by
a change of case, and by a change between ASCII letters and digits. A version marker such as `v2`
stays whole, and in a run of capitals the last one starts a new word when a small letter follows it.

* `splitIdentifier` — the words, joined by single spaces.
* `tokens` — the words in lower case, without those of a single character.
* `tokenSet` — the tokens without repetition.
-/

namespace CodeAtlas.Text

open CodeAtlas.Unicode

/-- Whether a new word starts at `c` though the character `prev` before it is alphanumeric too.
Three changes start one: from an ASCII letter other than `v` to a digit, from a digit to an ASCII
letter, and from a small letter to a capital. A capital after a capital starts one when a small
letter follows. -/
def startsWord (prev c : Char) (next : Option Char) : Bool :=
  (c.isDigit && prev.isAlpha && prev != 'v' && prev != 'V') ||
  (c.isAlpha && prev.isDigit) ||
  (isUppercase c &&
    (isLowercase prev || (isUppercase prev && next.any isLowercase)))

/-- The characters with a space for each of the separators `::` and `->` and for each other
character that is not alphanumeric, and a space in front of each one that starts a word; `prev` is
the character before them. -/
def spaced : Option Char → List Char → List Char
  | _, [] => []
  | _, ':' :: ':' :: cs => ' ' :: spaced (some ':') cs
  | _, '-' :: '>' :: cs => ' ' :: spaced (some '>') cs
  | prev, c :: cs =>
    if !isAlphanumeric c then ' ' :: spaced (some c) cs
    else if prev.any (startsWord · c cs.head?) then ' ' :: c :: spaced (some c) cs
    else c :: spaced (some c) cs

/-- The words of a name, in order. -/
def identifierWords (cs : List Char) : List (List Char) :=
  blankWords (spaced none cs)

/-- The words of a name, joined by single spaces. -/
def splitIdentifier (s : String) : String :=
  String.ofList (joinWords (identifierWords s.toList))

/-- The words of a text in lower case, in order of appearance, without those of one character. -/
def tokens (s : String) : List String :=
  (identifierWords s.toList).filterMap fun word =>
    let lower := lowercaseFrom [] word
    if 1 < lower.length then some (String.ofList lower) else none

/-- A set of tokens, in the order of their characters. -/
abbrev TokenSet := Std.TreeSet String

/-- The tokens of a text without repetition. -/
def tokenSet (s : String) : TokenSet :=
  Std.TreeSet.ofList (tokens s)

end CodeAtlas.Text
