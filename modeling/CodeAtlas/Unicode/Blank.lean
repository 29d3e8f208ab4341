/-!
# Blank characters

The characters with the Unicode property `White_Space`: the ASCII blanks, the next-line control, the
no-break space, and the spaces and line separators of the general punctuation block.

* `isBlank` — the property.
* `trim`, `trimStart`, `trimEnd` — a list of characters without its outer blanks.
-/

namespace CodeAtlas.Unicode

/-- Whether a character is white space. -/
def isBlank (c : Char) : Bool :=
  let n := c.toNat
  (9 ≤ n && n ≤ 13) || n == 0x20 || n == 0x85 || n == 0xA0 || n == 0x1680 ||
    (0x2000 ≤ n && n ≤ 0x200A) || n == 0x2028 || n == 0x2029 || n == 0x202F || n == 0x205F ||
    n == 0x3000

/-- Without the blanks at the start. -/
def trimStart (cs : List Char) : List Char :=
  cs.dropWhile isBlank

/-- Without the blanks at the end. -/
def trimEnd (cs : List Char) : List Char :=
  (cs.reverse.dropWhile isBlank).reverse

/-- Without the blanks at either end. -/
def trim (cs : List Char) : List Char :=
  trimEnd (trimStart cs)

end CodeAtlas.Unicode
