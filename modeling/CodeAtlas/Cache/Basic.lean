import CodeAtlas.Embedding.Basic
import CodeAtlas.Embedding.Fingerprint
import CodeAtlas.Text.Basic
import Std.Data.TreeMap

/-!
# The cache of vectors

Vectors are kept under keys, each with the hash of the text it was made from. A vector is used again
only while the text has the same hash, so a text that changes is embedded anew under its old key.

* `CacheKey` — the keys of files, identifiers and call sites.
* `Cache.vector?` — the vector under a key, if the text still has the stored hash.
* `Cache.prune` — the cache without the keys that are not wanted any more.
-/

namespace CodeAtlas

open CodeAtlas.Text

namespace CacheKey

/-- The key of a file. -/
def file (path : String) : String := path

/-- What the keys of identifiers start with. -/
def identifierMark : String := "id:"

/-- The key of an identifier. -/
def identifier (id : String) : String := identifierMark ++ id

/-- What the keys of call sites start with. -/
def callSiteMark : String := "callsite:"

/-- The key of a call site. -/
def callSite (path : String) (line : Nat) : String :=
  s!"{callSiteMark}{path}:{line}"

/-- What stands before the last colon, if there is one. -/
def beforeLastColon (cs : List Char) : Option (List Char) :=
  match cs.reverse.dropWhile (· ≠ ':') with
  | [] => none
  | _ :: before => some before.reverse

/-- The path in the key of a call site. -/
def callSitePath? (key : String) : Option String :=
  match dropLead? callSiteMark.toList key.toList with
  | none => none
  | some rest => (beforeLastColon rest).map String.ofList

end CacheKey

/-- A vector, and the hash of the text it was made from. -/
structure CacheEntry where
  /-- the hash of the text -/
  hash : String
  /-- the vector -/
  vector : Embedding
  deriving Inhabited

/-- Vectors by their keys, in the order of the keys. -/
abbrev Cache := Std.TreeMap String CacheEntry

namespace Cache

/-- The vector under a key, if it was made from a text with this hash. -/
def vector? (c : Cache) (key hash : String) : Option Embedding :=
  match c.get? key with
  | some entry => if entry.hash = hash then some entry.vector else none
  | none => none

/-- The cache without the keys that are not wanted, and how many were dropped. -/
def prune (c : Cache) (wanted : String → Bool) : Nat × Cache :=
  let kept := c.filter fun key _ => wanted key
  (c.size - kept.size, kept)

end Cache

end CodeAtlas
