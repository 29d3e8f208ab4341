import CodeAtlas.Text.Basic

/-!
# What paths have in common

A group of files is described by the directory they all lie in and the extension they all have, as
far as there is one: `src/auth/**/*.rs`, `src/auth/**`, `**/*.md`, or nothing.
-/

namespace CodeAtlas.Navigator

open CodeAtlas.Text

/-- The components of the directory that a file lies in. -/
def directoryOf (path : String) : List String :=
  ((splitOn '/' path).filter (· ≠ "")).dropLast

/-- The extension of a file: what follows the last dot of its name, unless nothing stands before or
after that dot. -/
def extensionOf? (path : String) : Option String :=
  let name := (splitOn '/' path).getLastD ""
  let (tail, stem) := (name.toList.reverse.span (· ≠ '.'))
  match stem with
  | [] => none
  | _ :: stem =>
    if stem.isEmpty || tail.isEmpty then none else some (String.ofList tail.reverse)

/-- The components that two lists start with. -/
def commonStart : List String → List String → List String
  | a :: as, b :: bs => if a = b then a :: commonStart as bs else []
  | _, _ => []

/-- The directory that all files lie in. -/
def commonDirectory : List String → List String
  | [] => []
  | first :: rest => (rest.map directoryOf).foldl commonStart (directoryOf first)

/-- The extension that all files have. -/
def commonExtension? : List String → Option String
  | [] => none
  | first :: rest =>
    (extensionOf? first).filter fun e => rest.all fun file => extensionOf? file = some e

/-- What a group of files has in common. -/
def pathPattern? (files : List String) : Option String :=
  let directory := "/".intercalate (commonDirectory files)
  match (commonDirectory files).isEmpty, commonExtension? files with
  | false, some e => some (directory ++ "/**/*." ++ e)
  | false, none => some (directory ++ "/**")
  | true, some e => some ("**/*." ++ e)
  | true, none => none

end CodeAtlas.Navigator
