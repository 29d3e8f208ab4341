import CodeAtlas.Cache.Fill
import CodeAtlas.Proofs.Cache.Written
import CodeAtlas.Proofs.Embedding.Stateless

/-!
# What filling does to a cache

Setup: items are filled into a cache by whoever makes vectors. `Cache.fill_cases` says how a call
can end, and `Cache.learnAll` is what becomes of the cache. Two things are asked of a cache after it
was filled.

* **`Cache.Honest`** — each entry was made from a text that has the entry's hash. This is the
  invariant behind every statement about caches that are older than the program that reads them;
  filling keeps it, whoever made the vectors (`Cache.Honest.fill`).
* **`Cache.vector?_learnAll`** — with an embedder that gives each text the same vector every time
  (`Batching.Gives`), a lookup after filling finds what the item got, as long as no other item wants
  its key (`Cache.Keyed`).
-/

namespace CodeAtlas

open CodeAtlas.Fingerprint (contentHash)

variable {σ : Type}

/-- Whenever an answer comes to some of the texts `asked`, each vector in it was made from the text
that it is the answer to. -/
def Batching.Makes (b : Batching) (provider : Provider σ Embedding) (asked : List String)
    (made : String → Embedding → Prop) : Prop :=
  ∀ texts ⊆ asked, ∀ s answers s', b.embedLenient provider texts s = (.ok answers, s') →
    ∀ text v, (text, some v) ∈ texts.zip answers → made text v

/-- The embedder gives each text the vector `g text`, or none, whatever is sent with it and whatever
was sent before. -/
def Batching.Gives (b : Batching) (provider : Provider σ Embedding)
    (g : String → Option Embedding) : Prop :=
  ∀ texts s, ∃ s', b.embedLenient provider texts s = (.ok (texts.map g), s')

/-- A provider without memory gives each text its slot. -/
theorem Provider.Stateless.gives {provider : Provider σ Embedding} {accepts : List String → Bool}
    {f : String → Embedding} (h : provider.Stateless accepts f) (b : Batching) :
    b.Gives provider (b.policy.slot accepts f) :=
  fun texts s => ⟨s, Batching.embedLenient_eq h b texts s⟩

/-- The provider answers every request, with the vector `f text` for each text. -/
def Provider.Answers (provider : Provider σ Embedding) (f : String → Embedding) : Prop :=
  ∀ texts s, texts ≠ [] → ∃ s', provider.embed texts s = (.ok (texts.map f), s')

/-- A provider that answers every request gives each text its vector. The batches get shorter, so
the induction is over the number of texts. -/
theorem Provider.Answers.gives {provider : Provider σ Embedding} {f : String → Embedding}
    (h : provider.Answers f) (b : Batching) : b.Gives provider fun text => some (f text) := by
  intro texts s
  rw [Batching.embedLenient]
  induction hn : texts.length using Nat.strong_induction_on generalizing texts s with
  | _ n ih =>
    subst hn
    cases texts with
    | nil => exact ⟨s, by rw [Batching.embedBatches]; rfl⟩
    | cons text rest =>
      have hpos := b.size_pos
      have hchunk : (text :: rest).take b.size ≠ [] := by simp [List.take_eq_nil_iff]; omega
      obtain ⟨s₁, hembed⟩ := h _ s hchunk
      obtain ⟨s₂, hrest⟩ := ih _ (by simp only [List.length_drop, List.length_cons]; omega)
        ((text :: rest).drop b.size) s₁ rfl
      refine ⟨s₂, ?_⟩
      rw [Batching.embedBatches, Batching.embedChunk, hembed]
      simp only [List.length_map, if_true, hrest, List.map_map, Function.comp_def,
        ← List.map_append, List.take_append_drop]

/-- What it gives a text is made from the text. -/
theorem Batching.Gives.makes {b : Batching} {provider : Provider σ Embedding}
    {g : String → Option Embedding} (h : b.Gives provider g) (asked : List String) :
    b.Makes provider asked fun text v => text ∈ asked ∧ g text = some v := by
  intro texts hasked s answers s' hanswers text v hmem
  obtain ⟨_, hgives⟩ := h texts s
  rw [hanswers] at hgives
  cases hgives
  rw [← List.map_prod_left_eq_zip] at hmem
  obtain ⟨text', htext, heq⟩ := List.mem_map.mp hmem
  obtain ⟨rfl, hv⟩ := Prod.mk.inj heq
  exact ⟨hasked htext, hv⟩

namespace Cache

variable {m : Cache}

/-! ## Lookups -/

/-- A vector is found under a key exactly when the entry there has the hash. -/
theorem vector?_eq_some {key hash : String} {v : Embedding} :
    m.vector? key hash = some v ↔ m[key]? = some ⟨hash, v⟩ := by
  rw [vector?, Std.TreeMap.get?_eq_getElem?]
  cases m[key]? with
  | none => simp
  | some entry =>
    obtain ⟨hash', v'⟩ := entry
    by_cases hhash : hash' = hash <;> simp [hhash]

/-- A lookup sees only what stands under its key. -/
theorem vector?_congr {m m' : Cache} {key : String} (h : m[key]? = m'[key]?) (hash : String) :
    m.vector? key hash = m'.vector? key hash := by
  rw [vector?, vector?, Std.TreeMap.get?_eq_getElem?, Std.TreeMap.get?_eq_getElem?, h]

/-- An empty cache knows nothing. -/
theorem vector?_of_isEmpty (h : m.isEmpty = true) (key hash : String) :
    m.vector? key hash = none := by
  rw [vector?, Std.TreeMap.get?_eq_getElem?, Std.TreeMap.getElem?_of_isEmpty h]

/-- Everything is missing from an empty cache. -/
theorem missing_of_isEmpty (h : m.isEmpty = true) (items : List Item) :
    m.missing items = items := by
  refine List.filter_eq_self.mpr fun i _ => ?_
  rw [vector?_of_isEmpty h]
  rfl

/-- What stands under a key after pruning. -/
theorem getElem?_prune (m : Cache) (wanted : String → Bool) (key : String) :
    (m.prune wanted).2[key]? = if wanted key then m[key]? else none := by
  rw [prune, Std.TreeMap.getElem?_filter']
  cases m[key]? <;> cases wanted key <;> simp

/-! ## Learning -/

/-- The cache with the answers to some items. -/
def learnAll (answers : List (Item × Option Embedding)) (m : Cache) : Cache :=
  answers.foldl learn m

/-- Learning an item leaves every other key alone. -/
theorem getElem?_learn_of_ne {key : String} {answer : Item × Option Embedding}
    (h : answer.1.key ≠ key) : (m.learn answer)[key]? = m[key]? := by
  obtain ⟨i, v?⟩ := answer
  cases v? with
  | none => rfl
  | some v =>
    rw [learn, Std.TreeMap.getElem?_insert]
    exact if_neg fun hkey => h (Std.LawfulEqCmp.compare_eq_iff_eq.mp hkey)

/-- A learned item stands under its key. -/
theorem getElem?_learn_self (i : Item) (v : Embedding) :
    (m.learn (i, some v))[i.key]? = some ⟨i.hash, v⟩ :=
  Std.TreeMap.getElem?_insert_self

/-- Learning leaves alone every key that is none of the items'. -/
theorem getElem?_learnAll_of_forall_ne {key : String} {answers : List (Item × Option Embedding)}
    (h : ∀ answer ∈ answers, answer.1.key ≠ key) : (m.learnAll answers)[key]? = m[key]? := by
  induction answers generalizing m with
  | nil => rfl
  | cons answer answers ih =>
    rw [learnAll, List.foldl_cons, ← learnAll, ih fun a ha => h a (List.mem_cons_of_mem _ ha)]
    exact getElem?_learn_of_ne (h answer List.mem_cons_self)

/-- What stands in the cache afterwards stood there before, or was learned. -/
theorem getElem?_learnAll_eq_some {key : String} {entry : CacheEntry}
    {answers : List (Item × Option Embedding)} (h : (m.learnAll answers)[key]? = some entry) :
    m[key]? = some entry ∨
      ∃ i, (i, some entry.vector) ∈ answers ∧ i.key = key ∧ i.hash = entry.hash := by
  induction answers generalizing m with
  | nil => exact .inl h
  | cons answer answers ih =>
    rw [learnAll, List.foldl_cons, ← learnAll] at h
    rcases ih h with hbefore | ⟨i, hi, hentry⟩
    · obtain ⟨i, v?⟩ := answer
      by_cases hkey : i.key = key
      · cases v? with
        | none => exact .inl hbefore
        | some v =>
          rw [← hkey, getElem?_learn_self] at hbefore
          cases hbefore
          exact .inr ⟨i, List.mem_cons_self, hkey, rfl⟩
      · rw [getElem?_learn_of_ne hkey] at hbefore
        exact .inl hbefore
    · exact .inr ⟨i, List.mem_cons_of_mem _ hi, hentry⟩

/-- A learned item stands under its key, unless another answer took it. -/
theorem getElem?_learnAll_of_mem {answers : List (Item × Option Embedding)} {i : Item}
    {v : Embedding} (hi : (i, some v) ∈ answers)
    (honly : ∀ answer ∈ answers, answer.1.key = i.key → answer = (i, some v)) :
    (m.learnAll answers)[i.key]? = some ⟨i.hash, v⟩ := by
  induction answers generalizing m with
  | nil => cases hi
  | cons answer answers ih =>
    rw [learnAll, List.foldl_cons, ← learnAll]
    by_cases hlater : (i, some v) ∈ answers
    · exact ih hlater fun a ha => honly a (List.mem_cons_of_mem _ ha)
    · obtain rfl : (i, some v) = answer := (List.mem_cons.mp hi).resolve_right hlater
      rw [getElem?_learnAll_of_forall_ne, getElem?_learn_self]
      intro a ha hkey
      rw [honly a (List.mem_cons_of_mem _ ha) hkey] at ha
      exact hlater ha

/-! ## Filling

The provider is asked only for the missing items, and not at all when there are none; the answers
that come then are no answers. -/

/-- What filling gives, when these answers come for the missing items. -/
def filled (m : Cache) (items : List Item) (answers : List (Option Embedding)) : Filled where
  cache := m.learnAll ((m.missing items).zip answers)
  vectors := closeGaps (m.found items) answers
  hits := ((m.found items).filter Option.isSome).length
  embedded := (((m.missing items).zip answers).filter fun answer => answer.2.isSome).length

/-- Without answers the gaps stay. -/
theorem closeGaps_nil (slots : List (Option Embedding)) : closeGaps slots [] = slots := by
  induction slots with
  | nil => rfl
  | cons slot slots ih =>
    cases slot with
    | none => rfl
    | some v => rw [closeGaps, ih]

/-- There are as many slots as before. -/
theorem length_closeGaps (slots answers : List (Option Embedding)) :
    (closeGaps slots answers).length = slots.length := by
  fun_induction closeGaps slots answers with
  | case1 => rfl
  | case2 v slots answers ih => exact congrArg Nat.succ ih
  | case3 slots => rfl
  | case4 slots answer answers ih => exact congrArg Nat.succ ih

/-- **How filling can end**: with the answers that came for the missing items, or with a failure. -/
theorem fill_cases (b : Batching) (provider : Provider σ Embedding) (items : List Item) (m : Cache)
    (s : σ) :
    (m.missing items = [] ∧ m.fill b provider items s = (.ok (m.filled items []), s)) ∨
    (∃ answers s', b.embedLenient provider ((m.missing items).map Item.text) s = (.ok answers, s') ∧
      m.fill b provider items s = (.ok (m.filled items answers), s')) ∨
    ∃ e s', b.embedLenient provider ((m.missing items).map Item.text) s = (.error e, s') ∧
      m.fill b provider items s = (.error e, s') := by
  rw [fill]
  by_cases hnone : m.missing items = []
  · refine .inl ⟨hnone, ?_⟩
    rw [filled, closeGaps_nil, hnone]
    rfl
  · simp only [List.isEmpty_eq_false_iff.mpr hnone, Bool.false_eq_true, if_false]
    rcases hcall : b.embedLenient provider ((m.missing items).map Item.text)
      s with ⟨e | answers, s'⟩
    · exact .inr (.inr ⟨e, s', rfl, rfl⟩)
    · exact .inr (.inl ⟨answers, s', rfl, rfl⟩)

/-! ## Honest caches -/

/-- Each entry was made from a text that has its hash. -/
def Honest (made : String → Embedding → Prop) (m : Cache) : Prop :=
  ∀ (key : String) (entry : CacheEntry), m[key]? = some entry →
    ∃ text, contentHash text = entry.hash ∧ made text entry.vector

namespace Honest

variable {made : String → Embedding → Prop}

/-- An empty cache is honest. -/
theorem of_isEmpty (h : m.isEmpty = true) : m.Honest made := by
  intro key entry hkey
  rw [Std.TreeMap.getElem?_of_isEmpty h] at hkey
  cases hkey

/-- Caches with the same entries are honest together. -/
theorem congr {m' : Cache} (h : m'.Equiv m) (hc : m.Honest made) : m'.Honest made := by
  intro key entry hkey
  rw [h.getElem?_eq] at hkey
  exact hc key entry hkey

/-- Learning what was made keeps the cache honest. -/
theorem learnAll {answers : List (Item × Option Embedding)} (hc : m.Honest made)
    (hmade : ∀ (i : Item) (v : Embedding), (i, some v) ∈ answers → made i.text v) :
    (m.learnAll answers).Honest made := by
  intro key entry hkey
  rcases getElem?_learnAll_eq_some hkey with hold | ⟨i, hi, -, hhash⟩
  · exact hc key entry hold
  · exact ⟨i.text, hhash, hmade i entry.vector hi⟩

/-- Pruning makes no new entries. -/
theorem prune (hc : m.Honest made) (wanted : String → Bool) : (m.prune wanted).2.Honest made := by
  intro key entry hkey
  rw [getElem?_prune] at hkey
  split at hkey
  · exact hc key entry hkey
  · cases hkey

/-- **Filling keeps a cache honest**, whoever makes the vectors. -/
theorem fill {b : Batching} {provider : Provider σ Embedding} {items : List Item}
    (hmakes : b.Makes provider (items.map Item.text) made) (hc : m.Honest made) {s s' : σ}
    {result : Filled} (h : m.fill b provider items s = (.ok result, s')) :
    result.cache.Honest made := by
  rcases fill_cases b provider items m s with ⟨-, hfill⟩ | ⟨answers, t, hcall, hfill⟩ |
    ⟨e, t, -, hfill⟩
  · rw [hfill] at h
    cases h
    refine hc.learnAll fun i v hi => ?_
    rw [List.zip_nil_right] at hi
    cases hi
  · rw [hfill] at h
    cases h
    have hasked : (m.missing items).map Item.text ⊆ items.map Item.text :=
      List.map_subset _ (List.filter_sublist.subset)
    refine hc.learnAll fun i v hi => hmakes _ hasked _ _ _ hcall i.text v ?_
    rw [List.zip_map_left]
    exact List.mem_map.mpr ⟨(i, some v), hi, rfl⟩
  · rw [hfill] at h
    cases h

/-- What an honest cache has of an item was made from the item's text, if no other text with its
hash was made into a vector. -/
theorem made_of_vector? (hc : m.Honest made) {i : Item}
    (hhash : ∀ text v, made text v → contentHash text = i.hash → text = i.text) {v : Embedding}
    (hv : m.vector? i.key i.hash = some v) : made i.text v := by
  obtain ⟨text, htext, hmade⟩ := hc i.key ⟨i.hash, v⟩ (vector?_eq_some.mp hv)
  rw [← hhash text v hmade htext]
  exact hmade

/-- An honest cache of storable vectors is storable. -/
theorem storable (hc : m.Honest made) (hmade : ∀ text v, made text v → v.Storable) :
    m.Storable := by
  intro key entry hkey
  obtain ⟨text, -, hv⟩ := hc key entry hkey
  exact hmade text entry.vector hv

end Honest

/-! ## An embedder that always gives the same

`closeGaps` puts the answers where the cache knew nothing, in order, so answers that depend on the
item alone end up with their items. -/

variable {g : String → Option Embedding}

/-- What an item gets: what the cache has of it, or else the vector of its text. -/
def recalled (g : String → Option Embedding) (m : Cache) (i : Item) : Option Embedding :=
  (m.vector? i.key i.hash).or (g i.text)

/-- The answers to the missing items. -/
def answersOf (g : String → Option Embedding) (m : Cache) (items : List Item) :
    List (Option Embedding) :=
  (m.missing items).map fun i => g i.text

/-- The answers for the missing items close the gaps. -/
theorem closeGaps_answersOf (g : String → Option Embedding) (m : Cache) (items : List Item) :
    closeGaps (m.found items) (m.answersOf g items) = items.map (m.recalled g) := by
  induction items with
  | nil => rfl
  | cons i items ih =>
    rw [found, answersOf, missing] at ih ⊢
    cases hi : m.vector? i.key i.hash with
    | some v =>
      rw [List.filter_cons_of_neg (by simp [hi]), List.map_cons, hi, closeGaps, ih, List.map_cons,
        recalled, hi]
      rfl
    | none =>
      rw [List.filter_cons_of_pos (by simp [hi]), List.map_cons, List.map_cons, hi, closeGaps, ih,
        List.map_cons, recalled, hi]
      rfl

/-- **Filling gives each item what the cache has of it, or else the vector of its text.** -/
theorem fill_eq {b : Batching} {provider : Provider σ Embedding} (h : b.Gives provider g)
    (items : List Item) (m : Cache) (s : σ) :
    ∃ s', m.fill b provider items s = (.ok (m.filled items (m.answersOf g items)), s') := by
  obtain ⟨t, hgives⟩ := h ((m.missing items).map Item.text) s
  rcases fill_cases b provider items m s with ⟨hnone, hfill⟩ | ⟨answers, s', hcall, hfill⟩ |
    ⟨e, s', hcall, hfill⟩
  · refine ⟨s, ?_⟩
    rw [hfill, answersOf, hnone]
    rfl
  · rw [hgives] at hcall
    cases hcall
    rw [List.map_map] at hfill
    exact ⟨t, hfill⟩
  · rw [hgives] at hcall
    cases hcall

/-- No two items want one key for different texts. -/
def Keyed (items : List Item) : Prop :=
  ∀ i ∈ items, ∀ j ∈ items, i.key = j.key → i = j

/-- The answers go to the missing items. -/
theorem zip_answersOf (g : String → Option Embedding) (m : Cache) (items : List Item) :
    (m.missing items).zip (m.answersOf g items) = (m.missing items).map fun i => (i, g i.text) :=
  List.map_prod_left_eq_zip.symm

/-- Filling with what an embedder makes keeps a cache honest. -/
theorem Honest.filled {made : String → Embedding → Prop} (hc : m.Honest made) {items : List Item}
    (hmade : ∀ i ∈ items, ∀ v, g i.text = some v → made i.text v) :
    (m.filled items (m.answersOf g items)).cache.Honest made := by
  refine hc.learnAll fun i v hi => ?_
  rw [zip_answersOf] at hi
  obtain ⟨j, hj, heq⟩ := List.mem_map.mp hi
  obtain ⟨rfl, hv⟩ := Prod.mk.inj heq
  exact hmade j (List.mem_of_mem_filter hj) v hv

/-- A lookup of an item whose key is none of the items' finds what it found. -/
theorem vector?_learnAll_of_forall_ne {items : List Item} {i : Item}
    (hkey : ∀ j ∈ items, j.key ≠ i.key) :
    (m.filled items (m.answersOf g items)).cache.vector? i.key i.hash = m.vector? i.key i.hash := by
  rw [filled, zip_answersOf]
  refine vector?_congr (getElem?_learnAll_of_forall_ne fun answer hanswer => ?_) _
  obtain ⟨j, hj, rfl⟩ := List.mem_map.mp hanswer
  exact hkey j (List.mem_of_mem_filter hj)

/-- **After filling, a lookup finds what the item got.** -/
theorem vector?_learnAll {items : List Item} {i : Item} (hi : i ∈ items)
    (hkey : ∀ j ∈ items, j.key = i.key → j = i) :
    (m.filled items (m.answersOf g items)).cache.vector? i.key i.hash = m.recalled g i := by
  have honly : ∀ answer ∈ (m.missing items).map fun i => (i, g i.text),
      answer.1.key = i.key → answer = (i, g i.text) := by
    intro answer hanswer hsame
    obtain ⟨j, hj, rfl⟩ := List.mem_map.mp hanswer
    rw [hkey j (List.mem_of_mem_filter hj) hsame]
  rw [filled, zip_answersOf, recalled]
  cases hbefore : m.vector? i.key i.hash with
  | some v =>
    -- a hit is not missing, so no answer goes under its key
    have hframe : ∀ answer ∈ (m.missing items).map fun i => (i, g i.text),
        answer.1.key ≠ i.key := by
      intro answer hanswer hsame
      obtain ⟨j, hj, rfl⟩ := List.mem_map.mp hanswer
      have hnone := (List.mem_filter.mp hj).2
      rw [hkey j (List.mem_of_mem_filter hj) hsame, hbefore] at hnone
      cases hnone
    rw [vector?_congr (getElem?_learnAll_of_forall_ne hframe), hbefore]
    rfl
  | none =>
    -- the item is missing, and only its own answer goes under its key
    have hmem : (i, g i.text) ∈ (m.missing items).map fun i => (i, g i.text) :=
      List.mem_map.mpr ⟨i, List.mem_filter.mpr ⟨hi, by rw [hbefore]; rfl⟩, rfl⟩
    cases hg : g i.text with
    | some v =>
      rw [hg] at hmem honly
      exact vector?_eq_some.mpr (getElem?_learnAll_of_mem hmem honly)
    | none =>
      refine Option.eq_none_iff_forall_ne_some.mpr fun v hv => ?_
      rcases getElem?_learnAll_eq_some (vector?_eq_some.mp hv) with hold | ⟨j, hj, hsame, -⟩
      · rw [vector?_eq_some.mpr hold] at hbefore
        cases hbefore
      · have heq := honly _ hj hsame
        rw [hg] at heq
        cases heq

end Cache

end CodeAtlas
