import CodeAtlas.Proofs.Cache.Fill

/-!
# Filling twice

Setup: some items were filled into a cache, by an embedder that gives a text the same every time
(`Batching.Deterministic`). A cache that has what they got, and nothing else for those that got
nothing, is **settled** for these items (`Cache.Repeats`): filling it again finds every vector in
it, sends only the texts that never got one, and changes nothing.

The cache is settled once it was filled (`Cache.fill_repeats`), and it stays so when it is freed of
keys that no item has (`Cache.prune_repeats`). Both need that no two items share a key.
-/

namespace CodeAtlas

variable {σ τ : Type} {b : Batching} {provider : Provider σ Embedding}
    {g : String → Option Embedding}

/-- Whenever the embedder answers, each text gets the vector `g text`, or none; and what it answered
once it answers again, whole or in part. -/
structure Batching.Deterministic (b : Batching) (provider : Provider σ Embedding)
    (g : String → Option Embedding) : Prop where
  /-- a text gets the same in every answer -/
  answers : ∀ {texts s slots s'}, b.embedLenient provider texts s = (.ok slots, s') →
    slots = texts.map g
  /-- texts that were answered are answered again -/
  again : ∀ {texts s slots s'}, b.embedLenient provider texts s = (.ok slots, s') →
    ∀ texts' ⊆ texts, ∀ t, ∃ slots' t', b.embedLenient provider texts' t = (.ok slots', t')

/-- An embedder that never fails is deterministic when a text gets the same every time. -/
theorem Batching.Gives.deterministic (h : b.Gives provider g) : b.Deterministic provider g where
  answers {texts s slots s'} hanswer := by
    obtain ⟨t, hgives⟩ := h texts s
    rw [hanswer] at hgives
    cases hgives
    rfl
  again _ texts' _ t := ⟨_, h texts' t⟩

namespace Cache

variable {m : Cache} {items : List Item} {vectors : List (Option Embedding)}

/-- The texts of the items that have no vector. -/
def unanswered (items : List Item) (vectors : List (Option Embedding)) : List String :=
  ((items.zip vectors).filter fun pair => pair.2.isNone).map fun pair => pair.1.text

/-- The cache is settled for items that got these vectors. -/
structure Repeats (b : Batching) (provider : Provider σ Embedding) (items : List Item)
    (vectors : List (Option Embedding)) (m : Cache) : Prop where
  /-- each vector is found, and nothing is found for an item without one -/
  found : m.found items = vectors
  /-- whoever makes the vectors, only the texts of items without one are sent -/
  sent : ∀ {τ : Type} (b' : Batching) (provider' : Provider τ Embedding) (t : τ),
    (m.fill b' provider' items t).2 = (b'.embedLenient provider' (unanswered items vectors) t).2
  /-- filling gives the same vectors, all of them hits, and the cache as it was -/
  same : ∀ s, ∃ s', m.fill b provider items s =
    (.ok ⟨m, vectors, (vectors.filter Option.isSome).length, 0⟩, s')

/-- The items without a vector are those that are missing. -/
theorem unanswered_found (m : Cache) (items : List Item) :
    unanswered items (m.found items) = (m.missing items).map Item.text := by
  rw [unanswered, found, ← List.map_prod_left_eq_zip, List.filter_map, List.map_map]
  rfl

/-- Nothing is learned from items that get nothing. -/
theorem learnAll_map_none (items : List Item) : m.learnAll (items.map fun i => (i, none)) = m := by
  induction items with
  | nil => rfl
  | cons i items ih => exact ih

/-- Only the missing texts are sent. -/
theorem fill_snd (b : Batching) (provider : Provider σ Embedding) (items : List Item) (m : Cache)
    (s : σ) : (m.fill b provider items s).2 =
      (b.embedLenient provider ((m.missing items).map Item.text) s).2 := by
  rcases fill_cases b provider items m s with ⟨hnone, hfill⟩ | ⟨answers, s', hcall, hfill⟩ |
    ⟨e, s', hcall, hfill⟩
  · rw [hfill, hnone, List.map_nil, Batching.embedLenient, Batching.embedBatches]
  · rw [hfill, hcall]
  · rw [hfill, hcall]

/-- A deterministic embedder gives the missing items what their texts get. -/
theorem filled_of_fill (h : b.Deterministic provider g) {s s' : σ} {first : Filled}
    (hfill : m.fill b provider items s = (.ok first, s')) :
    first = m.filled items (m.answersOf g items) := by
  rcases fill_cases b provider items m s with ⟨hnone, hcase⟩ | ⟨answers, t, hcall, hcase⟩ |
    ⟨e, t, -, hcase⟩
  · rw [hcase] at hfill
    cases hfill
    rw [answersOf, hnone, List.map_nil]
  · rw [hcase] at hfill
    cases hfill
    rw [h.answers hcall, List.map_map, answersOf]
    rfl
  · rw [hcase] at hfill
    cases hfill

/-- Texts that were sent once can be sent again, so a cache that lacks no more than another one can
be filled when the other one was. -/
theorem fill_succeeds (h : b.Deterministic provider g) {s s' : σ} {first : Filled}
    (hfill : m.fill b provider items s = (.ok first, s')) {m' : Cache}
    (hsub : m'.missing items ⊆ m.missing items) (t : σ) :
    ∃ second t', m'.fill b provider items t = (.ok second, t') := by
  rcases fill_cases b provider items m' t with ⟨-, hcase⟩ | ⟨answers, t', -, hcase⟩ |
    ⟨e, t', hcall, -⟩
  · exact ⟨_, _, hcase⟩
  · exact ⟨_, _, hcase⟩
  · -- a failure now would contradict the answer that came before
    rcases fill_cases b provider items m s with ⟨hnone, -⟩ | ⟨answers, s'', hcall', -⟩ |
      ⟨e', s'', -, hcase⟩
    · rw [hnone] at hsub
      rw [List.eq_nil_of_subset_nil hsub, List.map_nil, Batching.embedLenient,
        Batching.embedBatches] at hcall
      cases hcall
    · obtain ⟨slots, t'', hagain⟩ := h.again hcall' _ (List.map_subset Item.text hsub) t
      rw [hagain] at hcall
      cases hcall
    · rw [hcase] at hfill
      cases hfill

/-- When the missing items get nothing, filling changes nothing. -/
theorem filled_of_missing (h : ∀ i ∈ m.missing items, g i.text = none) :
    m.filled items (m.answersOf g items) =
      ⟨m, m.found items, ((m.found items).filter Option.isSome).length, 0⟩ := by
  have hanswers : (m.missing items).zip (m.answersOf g items) =
      (m.missing items).map fun i => (i, none) := by
    rw [zip_answersOf]
    exact List.map_congr_left fun i hi => by rw [h i hi]
  have hrecalled : items.map (m.recalled g) = m.found items := by
    refine List.map_congr_left fun i hi => ?_
    rw [recalled]
    cases hv : m.vector? i.key i.hash with
    | some v => rfl
    | none => exact h i (List.mem_filter.mpr ⟨hi, by rw [hv]; rfl⟩)
  have hnone : ((m.missing items).map fun i => (i, (none : Option Embedding))).filter
      (fun answer => answer.2.isSome) = [] := by
    rw [List.filter_map, List.map_eq_nil_iff]
    exact List.filter_eq_nil_iff.mpr fun _ _ => Bool.false_ne_true
  rw [filled, closeGaps_answersOf, hanswers, learnAll_map_none, hrecalled, hnone, List.length_nil]

/-- **A cache that has what the items got is settled for them.** What is missing got nothing, so it
was asked for before, and gets nothing again. -/
theorem repeats_of_found (h : b.Deterministic provider g) {s s' : σ} {first : Filled}
    (hfill : m.fill b provider items s = (.ok first, s')) {m' : Cache}
    (hfound : m'.found items = first.vectors) : m'.Repeats b provider items first.vectors where
  found := hfound
  sent b' provider' t := by rw [fill_snd, ← hfound, unanswered_found]
  same t := by
    have hgot : ∀ i ∈ items, m'.vector? i.key i.hash = m.recalled g i := by
      have hvectors := congrArg Filled.vectors (filled_of_fill h hfill)
      rw [filled, closeGaps_answersOf] at hvectors
      exact List.map_inj_left.mp (hfound.trans hvectors)
    have hmissing : ∀ i ∈ m'.missing items, i ∈ m.missing items ∧ g i.text = none := by
      intro i hi
      obtain ⟨hitem, hnone⟩ := List.mem_filter.mp hi
      rw [hgot i hitem, Option.isNone_iff_eq_none, recalled, Option.or_eq_none_iff] at hnone
      exact ⟨List.mem_filter.mpr ⟨hitem, by rw [hnone.1]; rfl⟩, hnone.2⟩
    obtain ⟨second, t', hsecond⟩ := fill_succeeds h hfill (fun i hi => (hmissing i hi).1) t
    refine ⟨t', ?_⟩
    rw [hsecond, filled_of_fill h hsecond, filled_of_missing fun i hi => (hmissing i hi).2, hfound]

/-- Nobody is asked when every item got a vector. -/
theorem Repeats.fill_of_forall_some (h : m.Repeats b provider items vectors) (hall : none ∉ vectors)
    (b' : Batching) (provider' : Provider τ Embedding) (t : τ) :
    m.fill b' provider' items t =
      (.ok ⟨m, vectors, (vectors.filter Option.isSome).length, 0⟩, t) := by
  have hmissing : m.missing items = [] := by
    refine List.filter_eq_nil_iff.mpr fun i hi hnone => hall ?_
    rw [← h.found, ← Option.isNone_iff_eq_none.mp hnone]
    exact List.mem_map_of_mem hi
  rw [fill, h.found, hmissing]
  rfl

/-- No two items share a key. -/
theorem keyed_of_nodup (h : (items.map Item.key).Nodup) : Keyed items :=
  fun _ hi _ hj hkey => List.inj_on_of_nodup_map h hi hj hkey

/-- **After filling, each item finds what it got.** -/
theorem found_of_fill (h : b.Deterministic provider g) (hkeys : Keyed items) {s s' : σ}
    {first : Filled} (hfill : m.fill b provider items s = (.ok first, s')) :
    first.cache.found items = first.vectors := by
  rw [filled_of_fill h hfill]
  conv_rhs => rw [filled, closeGaps_answersOf]
  exact List.map_congr_left fun i hi => vector?_learnAll hi fun j hj hkey => hkeys j hj i hi hkey

/-- Items whose keys are wanted find the same after pruning. -/
theorem found_prune {wanted : String → Bool} (h : ∀ i ∈ items, wanted i.key = true) :
    (m.prune wanted).2.found items = m.found items := by
  refine List.map_congr_left fun i hi => vector?_congr ?_ _
  rw [getElem?_prune, if_pos (h i hi)]

/-- Caches with the same entries find the same. -/
theorem found_congr {m' : Cache} (h : m'.Equiv m) (items : List Item) :
    m'.found items = m.found items :=
  List.map_congr_left fun _ _ => vector?_congr h.getElem?_eq _

/-- Caches with the same entries miss the same. -/
theorem missing_congr {m' : Cache} (h : m'.Equiv m) (items : List Item) :
    m'.missing items = m.missing items :=
  List.filter_congr fun i _ => by rw [vector?_congr h.getElem?_eq]

/-- What was pruned is not pruned again. -/
theorem prune_prune {wanted : String → Bool} {m' : Cache} (h : m'.Equiv (m.prune wanted).2) :
    (m'.prune wanted).1 = 0 ∧ (m'.prune wanted).2.Equiv m' := by
  have hkept : (m'.prune wanted).2.Equiv m' := by
    refine Std.TreeMap.Equiv.of_forall_constGet?_eq fun key => ?_
    rw [getElem?_prune, h.getElem?_eq, getElem?_prune]
    split <;> rfl
  refine ⟨?_, hkept⟩
  show m'.size - (m'.prune wanted).2.size = 0
  rw [hkept.size_eq, Nat.sub_self]

end Cache

end CodeAtlas
