import CodeAtlas.Disk.Basic
import CodeAtlas.Ignore.Glob

/-!
# Ignore rules

A directory may hold files with ignore rules, one rule a line. A rule is a glob over the paths below
that directory; it skips what the glob describes, or takes it in again. Of the rules of one file the
last one that applies decides. A nearer directory goes before one further up, and of the kinds of
files the stronger one goes first, wherever its files are.

* `Rule.ofLine?` — the rule of a line.
* `verdict?` — what the rules of one file say about a path.
* `RuleBook` — all rule files of a disk, with `RuleBook.skips`.
* `skipRules` — the verdict of all rules on a disk.
-/

namespace CodeAtlas.Ignore

open CodeAtlas.Text CodeAtlas.Unicode CodeAtlas.Path

/-- A rule about the paths below a directory. -/
structure Rule where
  /-- the paths it is about -/
  glob : Glob
  /-- whether it takes them in again instead of skipping them -/
  takesIn : Bool
  /-- whether it is about directories only -/
  onlyDirectories : Bool

namespace Rule

/-- A line without its blanks at the end, unless the last of them is escaped. -/
def stripLine (cs : List Char) : List Char :=
  if ['\\', ' '].isSuffixOf cs then cs else trimEnd cs

/-- Whether the rule takes paths in again, whether it is anchored at its directory, and its text
without the marks of that. -/
def marks : List Char → Bool × Bool × List Char
  | '\\' :: '!' :: rest => (false, false, '!' :: rest)
  | '\\' :: '#' :: rest => (false, false, '#' :: rest)
  | '!' :: '/' :: rest => (true, true, rest)
  | '!' :: rest => (true, false, rest)
  | '/' :: rest => (false, true, rest)
  | rest => (false, false, rest)

/-- Whether a rule is about directories only, and its text without the slash that says so. -/
def directoryMark (cs : List Char) : Bool × List Char :=
  match cs.reverse with
  | '/' :: '\\' :: before => (true, before.reverse)
  | '/' :: before => (true, before.reverse)
  | _ => (false, cs)

/-- Whether a text starts with two stars that fill a component. -/
def startsDeep (cs : List Char) : Bool :=
  ['*', '*', '/'].isPrefixOf cs || cs == ['*', '*']

/-- A rule that is not anchored and names no directory holds at every depth. -/
def deepen (anchored : Bool) (cs : List Char) : List Char :=
  if anchored || '/' ∈ cs || startsDeep cs then cs else '*' :: '*' :: '/' :: cs

/-- A rule about all that is in a directory is not about the directory. -/
def enter (cs : List Char) : List Char :=
  if ['/', '*', '*'].isSuffixOf cs then cs ++ ['/', '*'] else cs

/-- The rule of a line. Comments, empty lines and lines without a valid glob hold none. -/
def ofLine? (line : String) : Option Rule :=
  if line.toList.head? = some '#' then none
  else
    let cs := stripLine line.toList
    if cs.isEmpty then none
    else
      let (takesIn, anchored, text) := marks cs
      let (onlyDirectories, text) := directoryMark text
      (Glob.ofText? (String.ofList (enter (deepen anchored text)))).map fun glob =>
        ⟨glob, takesIn, onlyDirectories⟩

/-- Whether a rule is about a path. -/
def appliesTo (r : Rule) (path : String) (isDirectory : Bool) : Bool :=
  (isDirectory || !r.onlyDirectories) && r.glob.covers path

end Rule

/-! ## Files of rules -/

/-- The lines of a file, up to the first one that is not text. -/
def readableLines (bytes : ByteArray) : List String :=
  let chunks := (piecesAt 0x0A bytes.data.toList).map fun chunk =>
    String.fromUTF8? ⟨chunk.toArray⟩
  let texts := (chunks.takeWhile Option.isSome).filterMap id
  lines ("\n".intercalate (if texts.length < chunks.length then texts ++ [""] else texts))

/-- The mark that may stand in front of a text. -/
def byteOrderMark : Char := Char.ofNat 0xFEFF

/-- Lines without a byte order mark in front of the first one. -/
def withoutMark : List String → List String
  | [] => []
  | first :: rest => String.ofList (first.toList.dropWhile (· = byteOrderMark)) :: rest

/-- The rules of a file. -/
def rulesOf (bytes : ByteArray) : List Rule :=
  (withoutMark (readableLines bytes)).filterMap Rule.ofLine?

/-- What rules say about a path. -/
inductive Verdict where
  /-- the path is skipped -/
  | skip
  /-- the path is taken in -/
  | take
  deriving DecidableEq

/-- What the rules of one file say about a path below its directory, if any of them applies. -/
def verdict? (rules : List Rule) (path : String) (isDirectory : Bool) : Option Verdict :=
  (rules.reverse.find? fun r => r.appliesTo path isDirectory).map fun r =>
    if r.takesIn then .take else .skip

/-! ## All rules of a disk -/

/-- Where a directory keeps its rules, the stronger kind of file first. -/
def ruleFiles : List String := [".ignore", ".gitignore", ".git/info/exclude"]

/-- The directories with rules of one kind, and their rules. -/
abbrev RuleTable := List (Place × List Rule)

/-- All rules of a disk, the stronger kind of file first. -/
abbrev RuleBook := List RuleTable

/-- The directories of a disk. -/
def directories (d : Disk) : List Place :=
  [] :: d.entries.toList.filterMap fun (place, entry) =>
    match entry with
    | .directory => some place
    | _ => none

/-- The directories that hold the rule file `name`, with its rules. -/
def RuleTable.ofDisk (d : Disk) (name : String) : RuleTable :=
  (directories d).filterMap fun place =>
    match d.read (absoluteOf (place ++ [name])) with
    | .ok bytes => some (place, rulesOf bytes)
    | .error _ => none

/-- All rules of a disk. -/
def RuleBook.ofDisk (d : Disk) : RuleBook :=
  ruleFiles.map (RuleTable.ofDisk d)

/-- The directories above a place, the nearest first, each with the names that lead from it to the
place. -/
def directoriesAbove (place : Place) : List (Place × List String) :=
  (List.range place.length).reverse.map fun n => (place.take n, place.drop n)

/-- What the rules of one kind say about a place. -/
def RuleTable.verdict? (table : RuleTable) (place : Place) (isDirectory : Bool) : Option Verdict :=
  (directoriesAbove place).findSome? fun (directory, below) =>
    (table.find? fun entry => entry.1 == directory).bind fun entry =>
      Ignore.verdict? entry.2 (ofComponents below) isDirectory

/-- Whether the rules skip a place. -/
def RuleBook.skips (book : RuleBook) (place : Place) (isDirectory : Bool) : Bool :=
  book.findSome? (fun table => table.verdict? place isDirectory) == some .skip

/-- Whether the rules on a disk skip a place. -/
def skipRules (d : Disk) : Place → Bool → Bool :=
  (RuleBook.ofDisk d).skips

end CodeAtlas.Ignore
