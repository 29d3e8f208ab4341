import CodeAtlas.Cache.Store
import CodeAtlas.Proofs.Json.Numbers

/-!
# The written form of a cache

Setup: a cache is read back from its text, entry by entry, when its vectors consist of singles whose
decimals are read back. `Embedding.Storable` says that of a vector, `Cache.Storable` of all vectors
of a cache, and **`Cache.ofText?_text`** is the round trip.

A single that is not finite has no decimal and is written as `null`, so a vector with such a
component is not storable. Of a cache with any vectors at all the text is still well-formed, and
whatever is read from it was read from an entry of the cache under the same key:
**`Cache.getElem?_of_ofText?_text`**.
-/

namespace CodeAtlas

/-- Each component of the vector has a decimal that is read back as the component. -/
def Embedding.Storable (v : Embedding) : Prop :=
  ∀ x ∈ v.toList, ∃ l : Json.Literal, Json.Literal.ofFloat32? x = some l ∧ l.WellFormed ∧
    l.float32? = some x

/-- Each vector of the cache is storable. -/
def Cache.Storable (m : Cache) : Prop :=
  ∀ (key : String) (entry : CacheEntry), m[key]? = some entry → entry.vector.Storable

/-- The vector that is read after a vector was written. -/
def Embedding.reread? (v : Embedding) : Option Embedding :=
  embeddingOfJson? (.array (v.toList.map Json.ofFloat32))

/-- The second vector came from the first by being written and read, any number of times. -/
def Embedding.Rereads : Embedding → Embedding → Prop :=
  Relation.ReflTransGen fun v v' => v.reread? = some v'

/-! ## Entries -/

/-- The components are read back. -/
theorem mapM_float32? {xs : List Float32} (h : ∀ x ∈ xs, ∃ l : Json.Literal,
    Json.Literal.ofFloat32? x = some l ∧ l.WellFormed ∧ l.float32? = some x) :
    (xs.map Json.ofFloat32).mapM Json.float32? = some xs := by
  induction xs with
  | nil => rfl
  | cons x xs ih =>
    obtain ⟨l, hl, -, hx⟩ := h x List.mem_cons_self
    have hread : (Json.ofFloat32 x).float32? = some x := by rw [Json.ofFloat32, hl]; exact hx
    rw [List.map_cons, List.mapM_cons, hread, ih fun y hy => h y (List.mem_cons_of_mem _ hy)]
    rfl

/-- A storable vector is read back. -/
theorem Embedding.Storable.reread?_eq {v : Embedding} (h : v.Storable) : v.reread? = some v := by
  simp only [Embedding.reread?, embeddingOfJson?, Json.items?, mapM_float32? h, Option.bind_eq_bind,
    Option.bind_some]

/-- A storable vector stays what it is, however often it is written and read. -/
theorem Embedding.Rereads.eq_of_storable {v v' : Embedding} (h : v.Rereads v') (hv : v.Storable) :
    v' = v := by
  induction h with
  | refl => rfl
  | tail _ hread ih =>
    rw [ih, hv.reread?_eq] at hread
    exact (Option.some.inj hread).symm

/-- An entry is read with the vector that is read. -/
theorem CacheEntry.ofJson?_toJson (e : CacheEntry) :
    CacheEntry.ofJson? e.toJson = e.vector.reread?.map fun v => ⟨e.hash, v⟩ := by
  simp [toJson, ofJson?, Json.onlyField?, Json.text?, Embedding.reread?, Option.map_eq_bind]

/-- A single fits everywhere. -/
theorem Json.fits_ofFloat32 (depth : Nat) (x : Float32) : Fits depth (ofFloat32 x) := by
  rw [ofFloat32]
  cases h : Literal.ofFloat32? x with
  | some l => exact .number (Literal.wellFormed_ofFloat32? h)
  | none => exact .null

/-- A vector lies one deeper than its components, and an entry one deeper than its vector. -/
theorem CacheEntry.fits_toJson (e : CacheEntry) (depth : Nat) : Json.Fits (depth + 2) e.toJson := by
  refine .object fun field hfield => ?_
  rcases List.mem_pair.mp hfield with rfl | rfl
  · exact .text e.hash
  · refine .array fun j hj => ?_
    obtain ⟨x, -, rfl⟩ := List.mem_map.mp hj
    exact Json.fits_ofFloat32 depth x

/-! ## Caches -/

namespace Cache

/-- A cache is the one made from the list of its entries. -/
theorem ofList_toList (m : Cache) : (Std.TreeMap.ofList m.toList : Cache).Equiv m := by
  refine .of_forall_constGet?_eq fun key => ?_
  cases hkey : m[key]? with
  | some entry =>
    exact Std.TreeMap.getElem?_ofList_of_mem (Std.LawfulEqCmp.compare_eq_iff_eq.mpr rfl)
      Std.TreeMap.distinct_keys_toList (Std.TreeMap.mem_toList_iff_getElem?_eq_some.mpr hkey)
  | none =>
    refine Std.TreeMap.getElem?_ofList_of_contains_eq_false ?_
    rw [List.contains_eq_mem, decide_eq_false_iff_not, List.mem_map]
    rintro ⟨⟨key', entry⟩, hmem, rfl⟩
    rw [Std.TreeMap.mem_toList_iff_getElem?_eq_some, hkey] at hmem
    cases hmem

/-- What stands in a cache that was made from a list comes from the list. -/
theorem mem_of_getElem?_ofList {entries : List (String × CacheEntry)} {key : String}
    {entry : CacheEntry} (h : (Std.TreeMap.ofList entries : Cache)[key]? = some entry)
    (hdistinct : entries.Pairwise fun a b => ¬compare a.1 b.1 = .eq) : (key, entry) ∈ entries := by
  by_cases hkey : key ∈ entries.map Prod.fst
  · obtain ⟨⟨key, entry'⟩, hmem, rfl⟩ := List.mem_map.mp hkey
    rw [Std.TreeMap.getElem?_ofList_of_mem (Std.LawfulEqCmp.compare_eq_iff_eq.mpr rfl) hdistinct
      hmem] at h
    exact Option.some.inj h ▸ hmem
  · rw [Std.TreeMap.getElem?_ofList_of_contains_eq_false
      (by rwa [List.contains_eq_mem, decide_eq_false_iff_not])] at h
    cases h

/-- Entries are read under the keys under which they are written, each with its hash and the vector
that is read. -/
theorem mapM_ofJson?_inv {entries read : List (String × CacheEntry)}
    (h : (entries.map fun (key, entry) => (key, entry.toJson)).mapM (fun (key, value) =>
      (CacheEntry.ofJson? value).map fun entry => (key, entry)) = some read) :
    read.map Prod.fst = entries.map Prod.fst ∧ ∀ new ∈ read, ∃ old ∈ entries,
      new.1 = old.1 ∧ new.2.hash = old.2.hash ∧ old.2.vector.reread? = some new.2.vector := by
  induction entries generalizing read with
  | nil =>
    obtain rfl := Option.some.inj h
    exact ⟨rfl, nofun⟩
  | cons first entries ih =>
    simp only [List.map_cons, List.mapM_cons, CacheEntry.ofJson?_toJson, Option.map_map,
      Option.bind_eq_bind, Option.bind_eq_some_iff, Option.map_eq_some_iff, Option.pure_def,
      Option.some.injEq, Function.comp_apply] at h
    obtain ⟨_, ⟨v, hv, rfl⟩, more, hmore, rfl⟩ := h
    obtain ⟨hkeys, hentries⟩ := ih hmore
    refine ⟨congrArg (first.1 :: ·) hkeys, fun new hnew => ?_⟩
    rcases List.mem_cons.mp hnew with rfl | hnew
    · exact ⟨first, List.mem_cons_self, rfl, rfl, hv⟩
    · obtain ⟨old, hold, hsame⟩ := hentries new hnew
      exact ⟨old, List.mem_cons_of_mem _ hold, hsame⟩

/-- The entries are read back. -/
theorem mapM_ofJson? {entries : List (String × CacheEntry)}
    (h : ∀ entry ∈ entries, entry.2.vector.Storable) :
    (entries.map fun (key, entry) => (key, entry.toJson)).mapM (fun (key, value) =>
      (CacheEntry.ofJson? value).map fun entry => (key, entry)) = some entries := by
  induction entries with
  | nil => rfl
  | cons first entries ih =>
    rw [List.map_cons, List.mapM_cons,
      ih fun entry hentry => h entry (List.mem_cons_of_mem _ hentry)]
    simp only [CacheEntry.ofJson?_toJson, (h first List.mem_cons_self).reread?_eq]
    rfl

/-- The entries of a storable cache have storable vectors. -/
theorem Storable.of_mem {m : Cache} (h : m.Storable) {entry : String × CacheEntry}
    (hentry : entry ∈ m.toList) : entry.2.vector.Storable :=
  h entry.1 entry.2 (Std.TreeMap.mem_toList_iff_getElem?_eq_some.mp hentry)

/-- The text of a cache is read as the value that was written. -/
theorem ofText?_text_eq (m : Cache) : ofText? m.text = ofJson? m.toJson := by
  have hfits : Json.Fits Json.maxDepth m.toJson := by
    refine .object fun field hfield => ?_
    obtain ⟨⟨key, entry⟩, -, rfl⟩ := List.mem_map.mp hfield
    exact entry.fits_toJson 124
  rw [ofText?, text, Json.parse?_compact hfits, Option.bind_some]

/-- **A storable cache is read back from its text.** -/
theorem ofText?_text {m : Cache} (h : m.Storable) :
    ∃ m', ofText? m.text = some m' ∧ m'.Equiv m := by
  refine ⟨_, ?_, ofList_toList m⟩
  rw [ofText?_text_eq, toJson, ofJson?]
  simp only [mapM_ofJson? fun entry => h.of_mem, Option.bind_eq_bind, Option.bind_some]

/-- **What is read from the text of a cache** stood in the cache, with a vector that is read so. -/
theorem getElem?_of_ofText?_text {m m' : Cache} (h : ofText? m.text = some m') {key : String}
    {entry : CacheEntry} (hentry : m'[key]? = some entry) :
    ∃ old, m[key]? = some old ∧ old.hash = entry.hash ∧ old.vector.reread? = some entry.vector := by
  rw [ofText?_text_eq, toJson, ofJson?, Option.bind_eq_bind, Option.bind_eq_some_iff] at h
  obtain ⟨read, hread, hm'⟩ := h
  obtain rfl := Option.some.inj hm'
  obtain ⟨hkeys, hentries⟩ := mapM_ofJson?_inv hread
  have hdistinct : (m.toList.map Prod.fst).Pairwise fun a b => ¬compare a b = .eq :=
    List.pairwise_map.mpr Std.TreeMap.distinct_keys_toList
  rw [← hkeys, List.pairwise_map] at hdistinct
  obtain ⟨⟨key', old⟩, hold, hkey, hhash, hvector⟩ :=
    hentries _ (mem_of_getElem?_ofList hentry hdistinct)
  obtain rfl : key = key' := hkey
  exact ⟨old, Std.TreeMap.mem_toList_iff_getElem?_eq_some.mp hold, hhash.symm, hvector⟩

end Cache

end CodeAtlas
