import CodeAtlas.Cache.Basic
import CodeAtlas.Disk.Save
import CodeAtlas.Json.Reader
import CodeAtlas.Json.Writer

/-!
# Caches on disk

There are two caches, one for files and one for identifiers and call sites, each in a file of its
own. A cache is written as one JSON object, with the keys in order. A file that is missing, or that
does not hold exactly what is expected, is read as the empty cache.

* `Cache.text`, `Cache.ofText?` — the written form, and its reading.
* `CacheStore.save`, `CacheStore.load` — the files.
-/

namespace CodeAtlas

open CodeAtlas.Path

/-- Which cache is meant. -/
inductive CacheKind where
  /-- the vectors of files -/
  | files
  /-- the vectors of identifiers and call sites -/
  | identifiers
  deriving DecidableEq, Inhabited

/-- The name of a cache's file. -/
def CacheKind.fileName : CacheKind → String
  | .files => "embeddings-files.json"
  | .identifiers => "embeddings-identifiers.json"

/-! ## Written form -/

/-- The written form of an entry. -/
def CacheEntry.toJson (e : CacheEntry) : Json :=
  .object [("hash", .text e.hash), ("vector", .array (e.vector.toList.map Json.ofFloat32))]

/-- The written form of a cache. -/
def Cache.toJson (c : Cache) : Json :=
  .object (c.toList.map fun (key, entry) => (key, entry.toJson))

/-- The text of a cache. -/
def Cache.text (c : Cache) : String :=
  c.toJson.compact

/-! ## Reading -/

/-- The vector that a list of numbers spells. -/
def embeddingOfJson? (j : Json) : Option Embedding := do
  let items ← j.items?
  let values ← items.mapM Json.float32?
  some values.toArray

/-- The entry that a value spells: an object with both fields, or the two values in a list. -/
def CacheEntry.ofJson? : Json → Option CacheEntry
  | .object fields => do
    let hash ← (Json.onlyField? "hash" fields).bind Json.text?
    let vector ← (Json.onlyField? "vector" fields).bind embeddingOfJson?
    some ⟨hash, vector⟩
  | .array [hash, vector] => do
    let hash ← hash.text?
    let vector ← embeddingOfJson? vector
    some ⟨hash, vector⟩
  | _ => none

/-- The cache that a value spells. Of entries with one key the last one counts. -/
def Cache.ofJson? : Json → Option Cache
  | .object fields => do
    let entries ← fields.mapM fun (key, value) =>
      (CacheEntry.ofJson? value).map fun entry => (key, entry)
    some (Std.TreeMap.ofList entries)
  | _ => none

/-- The cache that a text spells. -/
def Cache.ofText? (text : String) : Option Cache :=
  (Json.parse? text).bind Cache.ofJson?

/-! ## Files -/

/-- The directory in which caches are kept. -/
structure CacheStore where
  /-- its path -/
  directory : String

namespace CacheStore

/-- The path of a cache. -/
def path (s : CacheStore) (kind : CacheKind) : String :=
  join s.directory kind.fileName

/-- The cache on a disk; empty if there is none that can be read. -/
def load (s : CacheStore) (kind : CacheKind) (d : Disk) : Cache :=
  match d.read (s.path kind) with
  | .error _ => ∅
  | .ok bytes =>
    match (String.fromUTF8? bytes).bind Cache.ofText? with
    | some cache => cache
    | none => ∅

/-- Saves a cache. -/
def save (s : CacheStore) (kind : CacheKind) (cache : Cache) : Change SaveError Unit :=
  Disk.save s.directory kind.fileName cache.text

/-- The wording of a failure to save. -/
def saveMessage (e : SaveError) : String :=
  e.message "Failed to create cache dir: "

end CacheStore

end CodeAtlas
