import CodeAtlas.Proofs.Embedding.Shrinking

/-!
# Batches for a provider without memory

Setup: a provider without memory accepts some lists of texts, and a list that it accepts gets the
vector `f text` for each of its texts. Every other list is too long for it. Whether a text gets a
vector then depends on the text alone, whatever batch it is sent in:

* a text that is accepted by itself gets its own vector;
* any other text gets the vector of the first of its shortened starts that is accepted, where a
  start keeps the whole part of the product of the length before it with the factor;
* a text none of whose starts is accepted gets none.

`ShrinkPolicy.slot` is this reference, and **`Batching.embedLenient_eq`** says that sending batches
of any size computes it. The proof goes up through the three levels of a call: the shortening of one
text, the halves of one batch, the batches of one call.
-/

namespace CodeAtlas

open CodeAtlas.Text

variable {σ V : Type}

/-- A provider without memory: it gives `f text` for each text of a list that it accepts, calls
every other list too long, and accepts by itself each text of a list that it accepts. -/
structure Provider.Stateless (provider : Provider σ V) (accepts : List String → Bool)
    (f : String → V) : Prop where
  /-- an accepted list gets its vectors in order -/
  accepted : ∀ texts s, accepts texts = true → provider.embed texts s = (.ok (texts.map f), s)
  /-- any other list is too long -/
  refused : ∀ texts s, accepts texts = false →
    ∃ detail, provider.embed texts s = (.error (.tooLong detail), s)
  /-- the texts of an accepted list are accepted one by one -/
  single : ∀ texts, accepts texts = true → ∀ text ∈ texts, accepts [text] = true

namespace ShrinkPolicy

/-- What a text gets when it is sent alone: its own vector, or else the vector of the first start
that is accepted. -/
def slot (p : ShrinkPolicy) (accepts : List String → Bool) (f : String → V) (text : String) :
    Option V :=
  if accepts [text] then some (f text)
  else ((p.starts text).find? fun start => accepts [start]).map f

end ShrinkPolicy

namespace Batching

variable {provider : Provider σ V} {accepts : List String → Bool} {f : String → V}

/-! ## One text

`shrink` counts its attempts down and carries the length it came from, so the induction is over the
attempts, for every length. -/

/-- Shortening tries the iterated lengths in order, and stops at the first start that is accepted.
-/
theorem shrink_eq (h : provider.Stateless accepts f) (p : ShrinkPolicy) (text : String) (s : σ) :
    ∀ retries length : Nat,
      shrink provider p text retries length s =
        (.ok (((p.startsFrom text retries length).find? fun start => accepts [start]).map f),
          s) := by
  intro retries
  induction retries with
  | zero => intro length; rfl
  | succ retries ih =>
    intro length
    rw [shrink]
    by_cases hzero : p.next length = 0
    · rw [if_pos hzero, ShrinkPolicy.startsFrom_of_eq_zero hzero]
      rfl
    · rw [if_neg hzero, ShrinkPolicy.startsFrom_of_ne_zero hzero]
      cases hacc : accepts [truncate text (p.next length)] with
      | true =>
        rw [h.accepted _ s hacc]
        simp only [List.map_cons, List.map_nil, List.find?_cons, hacc, Option.map_some]
      | false =>
        obtain ⟨detail, hrefused⟩ := h.refused _ s hacc
        rw [hrefused]
        simp only [List.find?_cons, hacc]
        exact ih (p.next length)

/-- A text that is refused by itself is shortened to its slot. -/
theorem shrink_eq_slot (h : provider.Stateless accepts f) (p : ShrinkPolicy) {text : String} (s : σ)
    (hrefused : accepts [text] = false) :
    shrink provider p text p.retries text.length s = (.ok (p.slot accepts f text), s) := by
  rw [shrink_eq h, ShrinkPolicy.slot, hrefused]
  rfl

/-! ## One batch -/

/-- The texts of an accepted list have their own vectors as slots. -/
theorem map_slot_of_accepted (h : provider.Stateless accepts f) (p : ShrinkPolicy)
    {texts : List String} (hacc : accepts texts = true) :
    texts.map (p.slot accepts f) = (texts.map f).map some := by
  rw [List.map_map]
  refine List.map_congr_left fun text htext => ?_
  rw [ShrinkPolicy.slot, if_pos (h.single texts hacc text htext)]
  rfl

/-- Halving a batch that is too long gives each text its slot. The halves are shorter than the
batch, so the induction is over the length of the batch. -/
theorem embedChunk_eq (h : provider.Stateless accepts f) (p : ShrinkPolicy) (chunk : List String)
    (s : σ) : embedChunk provider p chunk s = (.ok (chunk.map (p.slot accepts f)), s) := by
  induction hn : chunk.length using Nat.strong_induction_on generalizing chunk with
  | _ n ih =>
    subst hn
    cases hacc : accepts chunk with
    | true =>
      rw [embedChunk, h.accepted chunk s hacc, map_slot_of_accepted h p hacc]
      simp only [List.length_map, if_true]
    | false =>
      obtain ⟨detail, hrefused⟩ := h.refused chunk s hacc
      rw [embedChunk, hrefused]
      match chunk, hacc, ih with
      | [], _, _ => rfl
      | [text], hacc, _ =>
        simp only [shrink_eq_slot h p s hacc, List.map_cons, List.map_nil]
      | first :: second :: rest, _, ih =>
        -- both halves of two or more texts are shorter
        have hhalf : (first :: second :: rest).length / 2 < (first :: second :: rest).length := by
          simp only [List.length_cons]
          omega
        have hleft := ih _ (by simpa using hhalf)
          ((first :: second :: rest).take ((first :: second :: rest).length / 2)) rfl
        have hright := ih _ (by simp only [List.length_drop, List.length_cons]; omega)
          ((first :: second :: rest).drop ((first :: second :: rest).length / 2)) rfl
        simp only [hleft, hright, ← List.map_append, List.take_append_drop]

/-! ## All batches -/

/-- Batches of any size give each text its slot. -/
theorem embedBatches_eq (h : provider.Stateless accepts f) (p : ShrinkPolicy) (size : Nat)
    (size_pos : 0 < size) (texts : List String) (s : σ) :
    embedBatches provider p size size_pos texts s =
      (.ok (texts.map (p.slot accepts f)), s) := by
  induction hn : texts.length using Nat.strong_induction_on generalizing texts with
  | _ n ih =>
    subst hn
    cases texts with
    | nil => rw [embedBatches]; rfl
    | cons text rest =>
      have hrest := ih _ (by simp only [List.length_drop, List.length_cons]; omega)
        ((text :: rest).drop size) rfl
      rw [embedBatches, embedChunk_eq h]
      simp only [hrest, ← List.map_append, List.take_append_drop]

/-- **A call computes the slots**: one after the other, whatever the size of the batches. -/
theorem embedLenient_eq (h : provider.Stateless accepts f) (b : Batching) (texts : List String)
    (s : σ) : b.embedLenient provider texts s = (.ok (texts.map (b.policy.slot accepts f)), s) :=
  embedBatches_eq h b.policy b.size b.size_pos texts s

/-- **The size of the batches does not matter.** Two ways of sending texts that differ only in the
size of their batches give the same list, and each text gets what it would get alone. -/
theorem embedLenient_independent_of_size (h : provider.Stateless accepts f) (p : ShrinkPolicy)
    {m n : Nat} (hm : 0 < m) (hn : 0 < n) (texts : List String) (s : σ) :
    embedLenient ⟨m, p, hm⟩ provider texts s = embedLenient ⟨n, p, hn⟩ provider texts s ∧
      ∃ slots, embedLenient ⟨m, p, hm⟩ provider texts s = (.ok slots, s) ∧
        slots.length = texts.length ∧
        ∀ i (hi : i < texts.length), slots[i]? = some (p.slot accepts f texts[i]) := by
  refine ⟨by rw [embedLenient_eq h, embedLenient_eq h], texts.map (p.slot accepts f),
    embedLenient_eq h _ texts s, List.length_map .., fun i hi => ?_⟩
  rw [List.getElem?_map, List.getElem?_eq_getElem hi]
  rfl

end Batching

/-! ## A provider of lengths -/

/-- A provider whose vectors are lengths and that takes at most `limit` characters in one call. -/
def Provider.lengths (limit : Nat) : Provider Unit Nat where
  name := "lengths"
  embed texts s :=
    if (texts.map String.length).sum ≤ limit then (.ok (texts.map String.length), s)
    else (.error (.tooLong "batch"), s)

/-- It has no memory, and each text of a list within the limit is within the limit. -/
theorem Provider.stateless_lengths (limit : Nat) :
    (Provider.lengths limit).Stateless (fun texts => (texts.map String.length).sum ≤ limit)
      String.length where
  accepted texts s hacc := if_pos (of_decide_eq_true hacc)
  refused texts s hacc := ⟨"batch", if_neg (of_decide_eq_false hacc)⟩
  single texts hacc text htext := by
    have htotal : (texts.map String.length).sum ≤ limit := of_decide_eq_true hacc
    have hone : text.length ≤ (texts.map String.length).sum :=
      List.single_le_sum (by simp) _ (List.mem_map_of_mem htext)
    simpa using hone.trans htotal

/-- A text that fits, one of which a half fits, and one that fits only without the others. -/
theorem Batching.embedLenient_independent_of_size_lengths :
    embedLenient ⟨1, ⟨0.5, 2⟩, Nat.one_pos⟩ (Provider.lengths 4) ["ab", "abcdefgh", "abcd"] () =
        embedLenient ⟨3, ⟨0.5, 2⟩, by decide⟩ (Provider.lengths 4) ["ab", "abcdefgh", "abcd"] () ∧
      ∃ slots, embedLenient ⟨1, ⟨0.5, 2⟩, Nat.one_pos⟩ (Provider.lengths 4)
          ["ab", "abcdefgh", "abcd"] () = (.ok slots, ()) ∧
        slots[0]? = some (some 2) ∧ slots[1]? = some (some 4) ∧ slots[2]? = some (some 4) := by
  obtain ⟨hsame, slots, hslots, -, hall⟩ :=
    embedLenient_independent_of_size (Provider.stateless_lengths 4) ⟨0.5, 2⟩ Nat.one_pos
      (show 0 < 3 by decide) ["ab", "abcdefgh", "abcd"] ()
  have hhalf : (⟨0.5, 2⟩ : ShrinkPolicy).next "abcdefgh".length = 4 := by decide +kernel
  refine ⟨hsame, slots, hslots, ?_, ?_, ?_⟩
  · rw [hall 0 (by decide), ShrinkPolicy.slot, if_pos (by decide)]
    rfl
  · rw [hall 1 (by decide), ShrinkPolicy.slot, if_neg (by decide), ShrinkPolicy.starts]
    simp only [List.getElem_cons_succ, List.getElem_cons_zero]
    rw [ShrinkPolicy.startsFrom_of_ne_zero (by rw [hhalf]; decide), hhalf]
    rfl
  · rw [hall 2 (by decide), ShrinkPolicy.slot, if_pos (by decide)]
    rfl

end CodeAtlas
