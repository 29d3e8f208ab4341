import CodeAtlas.Embedding.ModelServer
import CodeAtlas.Proofs.Index.Past
import CodeAtlas.Proofs.Search.Singles

/-!
# What a cache file cannot hold

Setup: a cache is saved and loaded again. Numbers are taken to survive this: a finite component is
read back from its decimal (`Cache.Legible`). An infinity, and what is not a number, is written as
`null` (`Json.ofFloat32_eq_null_iff`), and `null` is not read as a number. One such component spoils
the whole file: not only its own entry, but every entry of the cache is lost (`Cache.Reloads`).

**`CacheStore.Opens.load_save_iff`** says that the cache survives exactly when all its components
are finite, and that nothing of it survives otherwise. A model server is where such components come
from: a number that fits into a double and not into a single is read from a response as an infinity.
-/

namespace CodeAtlas

/-! ## Finite singles -/

/-- A number is finite when its magnitude is below that of infinity. -/
theorem Reads.isFinite_iff {n : Nat} {u : Float.Model.UnpackedFloat} (h : Reads n u) :
    u.isFinite = true ↔ magnitude n < infinityBits := by
  have hpos : 0 < infinityBits := by decide
  cases h with
  | infinity h => exact iff_of_false Bool.false_ne_true (by omega)
  | zero h => exact iff_of_true rfl (by omega)
  | finite pos nonzero below mantissa exponent => exact iff_of_true rfl below

/-- The finite singles are those with a magnitude below that of infinity. -/
theorem isFinite_iff (x : Float32) : x.isFinite = true ↔
    magnitude x.toBits.toNat < infinityBits := by
  have hmodel : x.isFinite = x.toModel.unpack.isFinite := rfl
  rw [hmodel]
  rcases reads_cases x with ⟨-, -, hreads⟩ | ⟨-, hbits, hnone⟩
  · exact hreads.isFinite_iff
  · rw [hnone, hbits]
    decide

/-- Bits are read as a finite number unless all bits of the exponent are set. -/
theorem Decimal.BinaryFormat.exists_finite_iff (n : Nat) :
    (∃ negative mantissa exponent closeBelow,
      single.read n = .finite negative mantissa exponent closeBelow) ↔
        n / 2 ^ 23 % 2 ^ 8 ≠ 255 := by
  have hfield :
    (n / Nat.pow 2 single.fractionBits % Nat.pow 2 single.exponentBits = single.topField) =
    (n / 2 ^ 23 % 2 ^ 8 = 255) := rfl
  rw [read]
  simp only [hfield]
  split_ifs with htop
  · refine iff_of_false ?_ (not_not_intro htop)
    rintro ⟨_, _, _, _, hread⟩
    cases hread
  · refine iff_of_false ?_ (not_not_intro htop)
    rintro ⟨_, _, _, _, hread⟩
    cases hread
  · exact iff_of_true ⟨_, _, _, _, rfl⟩ htop
  · exact iff_of_true ⟨_, _, _, _, rfl⟩ htop

/-- Exactly the finite singles have a decimal. -/
theorem Json.ofFloat32_eq_null_iff (x : Float32) :
    Json.ofFloat32 x = .null ↔ x.isFinite = false := by
  have hlt : x.toBits.toNat < 2 ^ 32 := x.toBits.toNat_lt
  have hfield : x.toBits.toNat / 2 ^ 23 % 2 ^ 8 = 255 ↔ x.isFinite = false := by
    rw [← Bool.not_eq_true, isFinite_iff, infinityBits, magnitude]
    omega
  have hfinite := Decimal.BinaryFormat.exists_finite_iff x.toBits.toNat
  rw [← hfield, ← not_iff_not, ← ne_eq, ← ne_eq, ← hfinite, ofFloat32, Literal.ofFloat32?,
    Decimal.Reading.ofFloat32]
  cases Decimal.BinaryFormat.single.read x.toBits.toNat with
  | nan | infinite =>
    refine iff_of_false (not_not_intro rfl) ?_
    rintro ⟨_, _, _, _, hread⟩
    cases hread
  | finite negative mantissa exponent closeBelow =>
    refine iff_of_true ?_ ⟨_, _, _, _, rfl⟩
    dsimp only
    intro hnull
    split_ifs at hnull

/-! ## Vectors -/

/-- Each component is a finite number. -/
def Embedding.Finite (v : Embedding) : Prop :=
  ∀ x ∈ v.toList, x.isFinite = true

/-- Each finite component is read back from its decimal. -/
def Embedding.Legible (v : Embedding) : Prop :=
  ∀ x ∈ v.toList, x.isFinite = true → (Json.ofFloat32 x).float32? = some x

/-- A finite vector whose components are read back is storable. -/
theorem Embedding.Legible.storable {v : Embedding} (h : v.Legible) (hfinite : v.Finite) :
    v.Storable := by
  intro x hx
  have hread := h x hx (hfinite x hx)
  rw [Json.ofFloat32] at hread
  cases hl : Json.Literal.ofFloat32? x with
  | none =>
    rw [hl] at hread
    cases hread
  | some l =>
    rw [hl] at hread
    exact ⟨l, rfl, Json.Literal.wellFormed_ofFloat32? hl, hread⟩

/-- Where one item has no value, the list has none. -/
theorem mapM_eq_none {α β : Type} {f : α → Option β} {xs : List α} {x : α} (hmem : x ∈ xs)
    (hx : f x = none) : xs.mapM f = none := by
  induction xs with
  | nil => cases hmem
  | cons y ys ih =>
    rw [List.mapM_cons]
    rcases List.mem_cons.mp hmem with rfl | hmem
    · rw [hx]
      rfl
    · rw [ih hmem]
      cases f y <;> rfl

/-- A vector that is not finite is not read back. -/
theorem Embedding.reread?_eq_none {v : Embedding} (h : ¬v.Finite) : v.reread? = none := by
  obtain ⟨x, hx, hinfinite⟩ : ∃ x ∈ v.toList, x.isFinite = false := by
    simpa [Embedding.Finite] using h
  have hread : (Json.ofFloat32 x).float32? = none := by
    rw [(Json.ofFloat32_eq_null_iff x).mpr hinfinite]
    rfl
  simp only [Embedding.reread?, embeddingOfJson?, Json.items?, Option.bind_eq_bind,
    Option.bind_some, mapM_eq_none (List.mem_map_of_mem hx) hread, Option.bind_none]

/-! ## Caches -/

namespace Cache

variable {m : Cache}

/-- Each vector of the cache is finite. -/
def Finite (m : Cache) : Prop :=
  ∀ (key : String) (entry : CacheEntry), m[key]? = some entry → entry.vector.Finite

/-- Each finite component of the cache is read back from its decimal. -/
def Legible (m : Cache) : Prop :=
  ∀ (key : String) (entry : CacheEntry), m[key]? = some entry → entry.vector.Legible

/-- A finite cache whose components are read back is storable. -/
theorem Legible.storable (h : m.Legible) (hfinite : m.Finite) : m.Storable := by
  intro key entry hentry
  exact (h key entry hentry).storable (hfinite key entry hentry)

/-- **One component spoils the file**: from the text of a cache that is not finite nothing is read.
-/
theorem ofText?_text_eq_none (h : ¬m.Finite) : ofText? m.text = none := by
  simp only [Finite, not_forall] at h
  obtain ⟨key, entry, hentry, hinfinite⟩ := h
  have hmem := Std.TreeMap.mem_toList_iff_getElem?_eq_some.mpr hentry
  have hread : (CacheEntry.ofJson? entry.toJson).map (fun e => (key, e)) = none := by
    rw [CacheEntry.ofJson?_toJson, Embedding.reread?_eq_none hinfinite]
    rfl
  rw [ofText?_text_eq, toJson, ofJson?, mapM_eq_none (List.mem_map_of_mem hmem) hread]
  rfl

/-- A cache that is not finite has an entry, so it is not the empty one. -/
theorem not_equiv_empty (h : ¬m.Finite) : ¬(∅ : Cache).Equiv m := by
  intro hequiv
  refine h fun key entry hentry => ?_
  rw [← hequiv.getElem?_eq] at hentry
  simp at hentry

/-- What becomes of a cache that is written and then loaded: it comes back when it is finite, and
nothing comes back otherwise. -/
structure Reloads (saved loaded : Cache) : Prop where
  /-- a finite cache comes back -/
  kept : saved.Finite → loaded.Equiv saved
  /-- nothing comes back of another one -/
  lost : ¬saved.Finite → loaded = ∅

/-- **A cache is reloaded from its text**, where numbers are read back. -/
theorem Legible.reloads (h : m.Legible) : m.Reloads ((ofText? m.text).getD ∅) where
  kept hfinite := by
    obtain ⟨m', hm', hequiv⟩ := ofText?_text (h.storable hfinite)
    rw [hm', Option.getD_some]
    exact hequiv
  lost hinfinite := by rw [ofText?_text_eq_none hinfinite, Option.getD_none]

namespace Reloads

variable {loaded : Cache}

/-- The cache comes back exactly when it is finite. -/
theorem equiv_iff (h : m.Reloads loaded) : loaded.Equiv m ↔ m.Finite := by
  refine ⟨fun hequiv => ?_, h.kept⟩
  by_contra hinfinite
  rw [h.lost hinfinite] at hequiv
  exact not_equiv_empty hinfinite hequiv

/-- What comes back is honest. -/
theorem honest (h : m.Reloads loaded) {made : String → Embedding → Prop} (hm : m.Honest made) :
    loaded.Honest made := by
  by_cases hfinite : m.Finite
  · exact hm.congr (h.kept hfinite)
  · rw [h.lost hfinite]
    exact .of_isEmpty Std.TreeMap.isEmpty_emptyc

end Reloads

/-- An honest cache of legible vectors is legible. -/
theorem Honest.legible {made : String → Embedding → Prop} (hm : m.Honest made)
    (hmade : ∀ text v, made text v → v.Legible) : m.Legible := by
  intro key entry hentry
  obtain ⟨text, -, hv⟩ := hm key entry hentry
  exact hmade text entry.vector hv

/-- An honest cache of finite vectors is finite. -/
theorem Honest.finite {made : String → Embedding → Prop} (hm : m.Honest made)
    (hmade : ∀ text v, made text v → v.Finite) : m.Finite := by
  intro key entry hentry
  obtain ⟨text, -, hv⟩ := hm key entry hentry
  exact hmade text entry.vector hv

end Cache

namespace CacheStore

variable {s : CacheStore} {d d' : Disk} {home : Place}

/-- **What a cache that was written is loaded as**, where numbers are read back: the cache itself
exactly when all its components are finite, and otherwise the empty cache. -/
theorem Written.load_iff {kind : CacheKind} {m : Cache} (h : s.Written home kind m d d')
    (hm : m.Legible) :
    ((s.load kind d').Equiv m ↔ m.Finite) ∧ (¬m.Finite → s.load kind d' = ∅) := by
  rw [h.loaded]
  exact ⟨hm.reloads.equiv_iff, hm.reloads.lost⟩

/-- **What a saved cache is loaded as**, where numbers are read back: the cache itself exactly when
all its components are finite, and otherwise the empty cache. The other cache is loaded as before in
both cases. -/
theorem Opens.load_save_iff (h : s.Opens d d' home) (kind : CacheKind) {m : Cache}
    (hm : m.Legible) :
    ∃ d'', s.save kind m d = .ok () d'' ∧
      (∀ kind', kind' ≠ kind → s.load kind' d'' = s.load kind' d) ∧
      ((s.load kind d'').Equiv m ↔ m.Finite) ∧
      (¬m.Finite → s.load kind d'' = ∅) := by
  obtain ⟨d'', hsave, hwritten⟩ := h.write kind m
  refine ⟨d'', hsave, fun kind' hkind => ?_, hwritten.load_iff hm⟩
  rw [hwritten.other kind' hkind, h.loads]

end CacheStore

/-! ## A vector out of range -/

/-- What a server responds: a vector with the one component `1e39`. -/
def hugeResponse : Json :=
  .object [("embeddings",
    .array [.array [.number ⟨false, ['1'], none, some ⟨'e', none, ['3', '9']⟩⟩]])]

/-- The vector that the response is read as. -/
def hugeVector : Embedding :=
  ModelServer.embeddingOf [.number ⟨false, ['1'], none, some ⟨'e', none, ['3', '9']⟩⟩]

/-- Its component is too great for a single. -/
theorem not_finite_hugeVector : ¬hugeVector.Finite := by
  intro hfinite
  have hone := hfinite _ (List.mem_singleton_self _)
  revert hone
  decide +kernel

/-- Its component is not finite, and need not be read back. -/
theorem legible_hugeVector : hugeVector.Legible := by
  intro x hx hfinite
  refine absurd ?_ not_finite_hugeVector
  intro y hy
  rw [List.mem_singleton.mp hy, ← List.mem_singleton.mp hx]
  exact hfinite

/-- A storable vector is read back. -/
theorem Embedding.Storable.legible {v : Embedding} (h : v.Storable) : v.Legible := by
  intro x hx _
  obtain ⟨l, hl, -, hread⟩ := h x hx
  rw [Json.ofFloat32, hl]
  exact hread

/-- The entries of two files, one of them with that vector. -/
def spoiledEntries : List (String × CacheEntry) :=
  [("huge.md", ⟨"one", hugeVector⟩), ("plain.md", ⟨"two", #[1.0]⟩)]

/-- The cache of the two files. -/
def spoiledCache : Cache :=
  .ofList spoiledEntries

theorem distinct_spoiledEntries :
    spoiledEntries.Pairwise fun a b => ¬compare a.1 b.1 = .eq := by
  simp only [spoiledEntries, List.pairwise_pair]
  decide

/-- The plain vector is read back, and the component that is not finite need not be. -/
theorem legible_spoiledCache : spoiledCache.Legible := by
  intro key entry hentry
  have hmem := Cache.mem_of_getElem?_ofList hentry distinct_spoiledEntries
  simp only [spoiledEntries, List.mem_pair, Prod.mk.injEq] at hmem
  rcases hmem with ⟨-, rfl⟩ | ⟨-, rfl⟩
  · exact legible_hugeVector
  · exact Embedding.storable_one.legible

/-- The vector of the plain file is lost with the other one. -/
theorem CacheStore.Opens.load_save_iff_spoiled :
    ModelServer.embeddingsOf hugeResponse = .ok [hugeVector] ∧
      ∃ d, (constantIndexer #[1.0]).store.save .files spoiledCache cachesOnly = .ok () d ∧
        (constantIndexer #[1.0]).store.load .files d = ∅ := by
  obtain ⟨d, hsave, -, -, hempty⟩ := CacheStore.Opens.load_save_iff
    (settled_cachesOnly #[1.0]).opens .files legible_spoiledCache
  refine ⟨rfl, d, hsave, hempty ?_⟩
  intro hfinite
  refine not_finite_hugeVector (hfinite "huge.md" ⟨"one", hugeVector⟩ ?_)
  exact Std.TreeMap.getElem?_ofList_of_mem (Std.LawfulEqCmp.compare_eq_iff_eq.mpr rfl)
    distinct_spoiledEntries List.mem_cons_self

end CodeAtlas
