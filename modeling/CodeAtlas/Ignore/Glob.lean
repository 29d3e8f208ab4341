import CodeAtlas.Text.Basic

/-!
# Path globs

A glob describes paths, byte by byte and from end to end. `?` stands for one byte other than a
slash, `*` for any number of them, `[…]` for one byte of a class, `{…,…}` for one of several globs,
and a backslash takes the meaning from the character after it. Two stars that fill a whole component
stand for any number of components.

* `Glob.ofText?` — the glob of a text; not every text is one.
* `Glob.covers` — whether a glob describes a path.
-/

namespace CodeAtlas.Ignore

/-- A piece of a glob. -/
inductive Piece where
  /-- this byte -/
  | byte (b : UInt8)
  /-- one byte other than a slash -/
  | one
  /-- any number of bytes other than slashes -/
  | many
  /-- one byte in one of the ranges, or in none of them when `negated` -/
  | class (negated : Bool) (ranges : List (UInt8 × UInt8))
  /-- nothing, or all up to some slash -/
  | upToSlash
  /-- a slash and all that follows -/
  | belowSlash
  /-- a slash, or all from one slash to another -/
  | betweenSlashes
  /-- one of these sequences; of no sequence at all, the empty one -/
  | oneOf (branches : List (List Piece))

/-- A glob: a sequence of pieces. -/
abbrev Glob := List Piece

/-! ## Coverage -/

/-- The byte of a slash. -/
def slash : UInt8 := 0x2F

/-- Whether `next` holds after some number of bytes other than slashes. -/
def afterMany (next : List UInt8 → Bool) : List UInt8 → Bool
  | [] => next []
  | b :: bytes => next (b :: bytes) || (b != slash && afterMany next bytes)

/-- Whether `next` holds after some slash. -/
def afterSlash (next : List UInt8 → Bool) : List UInt8 → Bool
  | [] => false
  | b :: bytes => (b == slash && next bytes) || afterSlash next bytes

/-- Whether `next` holds after some number of bytes. -/
def afterAny (next : List UInt8 → Bool) : List UInt8 → Bool
  | [] => next []
  | b :: bytes => next (b :: bytes) || afterAny next bytes

/-- Whether the first byte passes a test and `next` holds after it. -/
def afterFirst (test : UInt8 → Bool) (next : List UInt8 → Bool) : List UInt8 → Bool
  | [] => false
  | b :: bytes => test b && next bytes

mutual

/-- Whether a piece describes a first part of the bytes such that `next` holds of the rest. -/
def Piece.leads (next : List UInt8 → Bool) : Piece → List UInt8 → Bool
  | .byte b, bytes => afterFirst (· == b) next bytes
  | .one, bytes => afterFirst (· != slash) next bytes
  | .many, bytes => afterMany next bytes
  | .class negated ranges, bytes =>
    afterFirst (fun b => (ranges.any fun r => r.1 ≤ b && b ≤ r.2) != negated) next bytes
  | .upToSlash, bytes => next bytes || afterSlash next bytes
  | .belowSlash, bytes => afterFirst (· == slash) (afterAny next) bytes
  | .betweenSlashes, bytes =>
    afterFirst (· == slash) (fun rest => next rest || afterSlash next rest) bytes
  | .oneOf [], bytes => next bytes
  | .oneOf (branch :: branches), bytes =>
    leadsAll next branch bytes || leadsSome next branches bytes

/-- Whether a sequence of pieces describes a first part of the bytes such that `next` holds of the
rest. -/
def leadsAll (next : List UInt8 → Bool) : List Piece → List UInt8 → Bool
  | [], bytes => next bytes
  | piece :: pieces, bytes => piece.leads (leadsAll next pieces) bytes

/-- Whether one of the sequences describes a first part of the bytes such that `next` holds of the
rest. -/
def leadsSome (next : List UInt8 → Bool) : List (List Piece) → List UInt8 → Bool
  | [], _ => false
  | branch :: branches, bytes => leadsAll next branch bytes || leadsSome next branches bytes

end

/-- Whether a glob describes a path. Two stars alone describe every path. -/
def Glob.covers (glob : Glob) (path : String) : Bool :=
  match glob with
  | [.upToSlash] => true
  | _ => leadsAll List.isEmpty glob path.toUTF8.data.toList

/-! ## Classes -/

/-- The bytes of a character. -/
def bytesOf (c : Char) : List UInt8 :=
  (String.singleton c).toUTF8.data.toList

/-- The ranges of bytes for the characters from `low` to `high`. A character of several bytes stands
for each of them. -/
def byteRanges (low high : Char) : List (UInt8 × UInt8) :=
  let single (b : UInt8) := (b, b)
  if low = high then (bytesOf low).map single
  else
    match (bytesOf low).reverse, bytesOf high with
    | last :: before, first :: after =>
      before.reverse.map single ++ (last, first) :: after.map single
    | _, _ => []

/-- The ranges of a class, given the range read last and what follows it. A range must not be
inverted. -/
def rangesFrom (low high : Char) : List Char → Option (List (UInt8 × UInt8))
  | [] => some (byteRanges low high)
  | ['-'] => some (byteRanges low high ++ byteRanges '-' '-')
  | '-' :: c :: rest => if c < low then none else rangesFrom low c rest
  | c :: rest => (rangesFrom c c rest).map (byteRanges low high ++ ·)

/-- The ranges of the text between the brackets of a class. -/
def rangesOf : List Char → Option (List (UInt8 × UInt8))
  | [] => some []
  | c :: rest => rangesFrom c c rest

/-- Whether the class that starts here is negated, and what follows the mark of it. -/
def negation : List Char → Bool × List Char
  | '!' :: rest => (true, rest)
  | '^' :: rest => (true, rest)
  | rest => (false, rest)

/-- What is read after an opening bracket. -/
inductive ClassReading (cs : List Char) where
  /-- a class, and what follows its closing bracket -/
  | closed (piece : Piece) (rest : List Char) (shorter : rest.length < cs.length)
  /-- no closing bracket -/
  | unclosed
  /-- an inverted range -/
  | inverted

theorem negation_length (cs : List Char) : (negation cs).2.length ≤ cs.length := by
  unfold negation
  split <;> simp

/-- Reads a class up to its closing bracket. A closing bracket in first place is a member. -/
def readClass (cs : List Char) : ClassReading cs :=
  match h : (negation cs).2 with
  | [] => .unclosed
  | first :: rest =>
    match rangesOf (first :: rest.takeWhile (· ≠ ']')) with
    | none => .inverted
    | some ranges =>
      match h' : rest.dropWhile (· ≠ ']') with
      | [] => .unclosed
      | _ :: rest' =>
        .closed (.class (negation cs).1 ranges) rest' (by
          have h1 := negation_length cs
          have h2 :=
            (List.dropWhile_sublist (fun c : Char => decide (c ≠ ']')) (l := rest)).length_le
          rw [h'] at h2
          rw [h] at h1
          simp only [List.length_cons] at h1 h2
          omega)

/-! ## Reading -/

/-- A group of alternatives that is still open: what stands in front of it and the sequences read so
far, each with its last piece first. -/
structure OpenGroup where
  /-- the pieces in front of the group -/
  before : List Piece
  /-- the finished sequences, the last one first -/
  branches : List (List Piece)

/-- A glob that is being read. -/
structure Draft where
  /-- the sequence being read, its last piece first -/
  pieces : List Piece
  /-- the groups around it, the innermost first -/
  groups : List OpenGroup
  /-- the character read last -/
  previous : Option Char
  /-- whether an opening bracket without a closing one was met -/
  unclosed : Bool

namespace Draft

/-- Nothing read yet. -/
def start : Draft := ⟨[], [], none, false⟩

/-- With one more piece. -/
def push (d : Draft) (c : Char) (piece : Piece) : Draft :=
  { d with pieces := piece :: d.pieces, previous := some c }

/-- With the bytes of one more character. -/
def pushChar (d : Draft) (c : Char) : Draft :=
  (bytesOf c).foldl (fun d b => d.push c (.byte b)) d

/-- Opens a group. -/
def openGroup (d : Draft) : Draft :=
  { d with pieces := [], groups := ⟨d.pieces, []⟩ :: d.groups, previous := some '{' }

/-- Starts the next sequence of the innermost group; outside groups a comma stands for itself. -/
def comma (d : Draft) : Draft :=
  match d.groups with
  | [] => d.pushChar ','
  | group :: outer =>
    { d with
      pieces := []
      groups := { group with branches := d.pieces :: group.branches } :: outer
      previous := some ',' }

/-- Whether a piece describes only the empty text. -/
def isIdle : Piece → Bool
  | .oneOf [] => true
  | _ => false

/-- Closes the innermost group. Its empty sequences do not count. -/
def closeGroup? (d : Draft) : Option Draft :=
  match d.groups with
  | [] => none
  | group :: outer =>
    let branches := (d.pieces :: group.branches).reverse.map List.reverse
    some { d with
      pieces := .oneOf (branches.filter fun b => !b.all isIdle) :: group.before
      groups := outer
      previous := some '}' }

/-- Puts `piece`, which stands for whole components, in place of the slash in front of it. A piece
that stands for whole components already takes it in. -/
def pushComponents (d : Draft) (c : Char) (piece : Piece) : Draft :=
  match d.pieces with
  | .upToSlash :: _ => { d with previous := some c }
  | .belowSlash :: _ => { d with previous := some c }
  | _ :: before => { d with pieces := piece :: before, previous := some c }
  | [] => { d with pieces := [piece], previous := some c }

/-- Whether two stars in this place may fill a whole component, as far as what is in front of them
goes. -/
def atComponent (d : Draft) : Bool :=
  d.previous = some '/' || (!d.groups.isEmpty && (d.previous = some ',' || d.previous = some '{'))

end Draft

/-- Reads on in a glob. -/
def readGlob (d : Draft) (cs : List Char) : Option Draft :=
  match cs with
  | [] => some d
  | '?' :: rest => readGlob (d.push '?' .one) rest
  | '*' :: '*' :: rest =>
    let stars := (d.push '*' .many).push '*' .many
    if d.pieces.isEmpty then
      match rest with
      | [] => some (d.push '*' .upToSlash)
      | '/' :: rest => readGlob (d.push '/' .upToSlash) rest
      | c :: rest => readGlob stars (c :: rest)
    else if !d.atComponent then readGlob stars rest
    else
      match rest with
      | [] => some (d.pushComponents '*' .belowSlash)
      | '/' :: rest => readGlob (d.pushComponents '/' .betweenSlashes) rest
      | c :: rest =>
        if (c = ',' || c = '}') && !d.groups.isEmpty then
          readGlob (d.pushComponents '*' .belowSlash) (c :: rest)
        else readGlob stars (c :: rest)
  | '*' :: rest => readGlob (d.push '*' .many) rest
  | '[' :: rest =>
    if d.unclosed then readGlob (d.pushChar '[') rest
    else
      match readClass rest with
      | .closed piece rest' _ => readGlob (d.push ']' piece) rest'
      | .unclosed => readGlob { d.pushChar '[' with unclosed := true } rest
      | .inverted => none
  | '{' :: rest => readGlob d.openGroup rest
  | '}' :: rest => d.closeGroup?.bind fun d => readGlob d rest
  | ',' :: rest => readGlob d.comma rest
  | '\\' :: [] => none
  | '\\' :: c :: rest => readGlob (d.pushChar c) rest
  | c :: rest => readGlob (d.pushChar c) rest
termination_by cs.length
decreasing_by all_goals (simp only [List.length_cons]; omega)

/-- The glob of a text. Every group must be closed and every backslash must have a character after
it. -/
def Glob.ofText? (s : String) : Option Glob :=
  (readGlob .start s.toList).bind fun d =>
    if d.groups.isEmpty then some d.pieces.reverse else none

end CodeAtlas.Ignore
