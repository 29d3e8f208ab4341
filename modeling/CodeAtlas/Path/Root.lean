import CodeAtlas.Path.Lexical
import CodeAtlas.Text.Utf8

/-!
# Names under a root

Everything the index knows about is named by its path relative to one root directory, with forward
slashes and without empty, `.` and `..` components. The root itself is named `.`.

* `Root.relative` — the name of a path. A path that is not under the root, or that contains `..` in
  the part below the root, has none.
* `Root.isIgnored` — whether a name is to be skipped: some run of its components is an ignored
  sequence of components, or it lies in an excluded directory.
-/

namespace CodeAtlas.Path

open CodeAtlas.Text

/-- Why a path has no name under the root. -/
inductive NameError where
  /-- the path leads out of the root -/
  | outside (path root : String)
  /-- the path is not a text -/
  | notText (bytes : ByteArray)
  deriving DecidableEq

/-- The wording of an error. -/
def NameError.message : NameError → String
  | .outside path root => s!"Path '{path}' is outside index root '{root}'"
  | .notText bytes => "Path contains non-UTF-8 characters: " ++ Utf8.decodeLossy bytes

/-- A root directory, and what is skipped under it. -/
structure Root where
  /-- the directory, as it was given -/
  directory : String
  /-- component sequences that are skipped wherever they occur -/
  ignored : List (List String)
  /-- names of directories that are skipped with everything below them -/
  excluded : List String

/-- Without the slashes at the end. -/
def dropEndSlashes (cs : List Char) : List Char :=
  (cs.reverse.dropWhile (· = '/')).reverse

/-- Without the leading runs of `./`. -/
def dropDotSlashes : List Char → List Char
  | '.' :: '/' :: cs => dropDotSlashes cs
  | cs => cs

/-- Whether a path that starts where a directory's name ends goes on below that directory. -/
def continuesBelow (rest : List Char) : Bool :=
  rest.head?.all (· = '/')

/-- What is left of `path` below `directory`, if it is that directory or lies in it. -/
def below? (directory path : List Char) : Option (List Char) :=
  (dropLead? directory path).filter continuesBelow

namespace Root

/-- A component sequence from its written form: outer slashes do not count, and a form without any
other character stands for no sequence. -/
def sequence? (written : String) : Option (List String) :=
  let cs := dropEndSlashes (written.toList.dropWhile (· = '/'))
  if cs.isEmpty then none
  else some (splitOn '/' (slashed (String.ofList cs)))

/-- A root directory where the given component sequences are skipped. -/
def ofDirectory (directory : String) (ignored : List String) : Root :=
  ⟨directory, ignored.filterMap sequence?, []⟩

/-- The directory with forward slashes and without slashes at its end. -/
def spelling (r : Root) : String :=
  String.ofList (dropEndSlashes (slashed r.directory).toList)

/-- The part of a path that names something under the root. -/
def remainder? (r : Root) (path : String) : Option (List Char) :=
  let cs := (slashed path).toList
  if isAbsolute path then below? r.spelling.toList cs
  else
    let rest := dropDotSlashes cs
    if rest.head? = some '/' then none else some rest

/-- The name of these components; no component at all names the root. -/
def nameOf (components : List String) : String :=
  if components.isEmpty then "." else ofComponents components

/-- The name of a path. A relative path is taken under the root. -/
def relative (r : Root) (path : String) : Except NameError String :=
  match (r.remainder? path).map fun rest => components (String.ofList rest) with
  | some parts =>
    if ".." ∈ parts then .error (.outside (slashed path) r.spelling) else .ok (nameOf parts)
  | none => .error (.outside (slashed path) r.spelling)

/-- The name of a path given by its bytes. -/
def relativeOfBytes (r : Root) (bytes : ByteArray) : Except NameError String :=
  match String.fromUTF8? bytes with
  | some path => r.relative path
  | none => .error (.notText bytes)

/-- The root where `directory` is skipped too, if it lies under the root. -/
def excluding (r : Root) (directory : String) : Root :=
  match r.relative directory with
  | .ok name => if name ≠ "." && !r.excluded.contains name then
      { r with excluded := r.excluded ++ [name] } else r
  | .error _ => r

/-- The path of a name. -/
def absolute (r : Root) (name : String) : String :=
  join r.directory name

/-- Whether `sequence` occurs among the components, one after the other. -/
def occursAmong (sequence : List String) : List String → Bool
  | [] => sequence.isEmpty
  | component :: rest =>
    sequence.isPrefixOf (component :: rest) || occursAmong sequence rest

/-- Whether a name is skipped. -/
def isIgnored (r : Root) (name : String) : Bool :=
  let cs := dropDotSlashes name.toList
  r.excluded.any (fun directory => (below? directory.toList cs).isSome) ||
    r.ignored.any fun sequence => occursAmong sequence ((splitOnChar '/' cs).filterMap fun part =>
      if part.isEmpty then none else some (String.ofList part))

end Root

end CodeAtlas.Path
