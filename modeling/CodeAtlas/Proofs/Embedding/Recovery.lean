import CodeAtlas.Proofs.Embedding.Calls
import CodeAtlas.Settings.Basic

/-!
# How much a run sends

Setup: a run sends texts to any provider at all. Each call has a purpose: it sends some texts that
follow one another, a slice of the input, or it sends a start of one text. The purposes are counted,
for the worst that a provider can do:

* the halves of a batch are not empty and shorter than it, so that a batch of `c` texts is sent in
  at most `2 * c - 1` slices, as many as a binary tree with `c` leaves has nodes;
* a text is shortened at most as often as the policy says.

`Purpose.Batch` is this bound for one batch, and **`Batching.calls_bounded`** states it for every
batch of a run.
-/

namespace CodeAtlas

open CodeAtlas.Text

variable {σ V : Type}

/-- What a call is made for. -/
inductive Purpose where
  /-- to send the `count` texts from `first` on -/
  | slice (first count : Nat)
  /-- to send a start of the text at `index` -/
  | start (index : Nat)
  deriving DecidableEq

namespace Purpose

/-- A call is made for a purpose: a slice is not empty, and its texts stand in the input from
`first` on; a start has at least one character. -/
inductive Explains (texts : List String) : Purpose → Call V → Prop where
  /-- texts that follow one another -/
  | slice {first : Nat} {chunk : List String} {answer : Except EmbedError (List V)}
      (ne_nil : chunk ≠ []) (at_first : chunk <+: texts.drop first) :
      Explains texts (.slice first chunk.length) ⟨chunk, answer⟩
  /-- the first characters of one text -/
  | start {index length : Nat} {text : String} {answer : Except EmbedError (List V)}
      (at_index : texts[index]? = some text) (pos : 0 < length) :
      Explains texts (.start index) ⟨[truncate text length], answer⟩

/-- The first half of two or more texts has a text. -/
theorem take_half_ne_nil {chunk : List String} (htwo : 2 ≤ chunk.length) :
    chunk.take (chunk.length / 2) ≠ [] := by
  apply List.ne_nil_of_length_pos
  rw [List.length_take]
  omega

/-- The second half of two or more texts has a text. -/
theorem drop_half_ne_nil {chunk : List String} (htwo : 2 ≤ chunk.length) :
    chunk.drop (chunk.length / 2) ≠ [] := by
  apply List.ne_nil_of_length_pos
  rw [List.length_drop]
  omega

/-- A slice of the texts, not a start of one. -/
def isSlice : Purpose → Bool
  | .slice _ _ => true
  | .start _ => false

/-- Only the `count` texts from `first` on are concerned. -/
def Within (first count : Nat) : Purpose → Prop
  | .slice i n => first ≤ i ∧ i + n ≤ first + count
  | .start i => first ≤ i ∧ i < first + count

/-- The purposes of the calls for a batch, the `count` texts from `first` on. -/
structure Batch (retries first count : Nat) (purposes : List Purpose) : Prop where
  /-- no other texts are concerned -/
  within : ∀ purpose ∈ purposes, purpose.Within first count
  /-- there are fewer than two slices for each text -/
  slices : purposes.countP isSlice ≤ 2 * count - 1
  /-- each text is shortened as often as allowed, or less -/
  starts : ∀ i, purposes.count (.start i) ≤ retries
  /-- this is all -/
  total : purposes.length ≤ 2 * count - 1 + retries * count

theorem Within.mono {first count first' count' : Nat} {purpose : Purpose}
    (h : purpose.Within first count) (hfirst : first' ≤ first)
    (hlast : first + count ≤ first' + count') : purpose.Within first' count' := by
  cases purpose with
  | slice i n => exact ⟨hfirst.trans h.1, h.2.trans hlast⟩
  | start i => exact ⟨hfirst.trans h.1, h.2.trans_le hlast⟩

namespace Batch

variable {retries first count m : Nat} {purposes left right : List Purpose}

/-- A text outside of the batch is not shortened. -/
theorem count_start_eq_zero (h : Batch retries first count purposes) {i : Nat}
    (hi : i < first ∨ first + count ≤ i) : purposes.count (.start i) = 0 := by
  apply List.count_eq_zero.mpr
  intro hmem
  obtain ⟨hlow, hhigh⟩ := h.within _ hmem
  omega

/-- A batch that is sent once. -/
theorem once (hcount : 0 < count) : Batch retries first count [.slice first count] where
  within purpose hmem := by
    rw [List.mem_singleton.mp hmem]
    exact ⟨le_rfl, le_rfl⟩
  slices := by
    rw [List.countP_singleton, isSlice, if_pos rfl]
    omega
  starts i := by
    rw [List.count_singleton, if_neg (by simp)]
    exact Nat.zero_le _
  total := by
    rw [List.length_singleton]
    omega

/-- A single text that is sent once and then shortened. -/
theorem shortened (hm : m ≤ retries) :
    Batch retries first 1 (.slice first 1 :: List.replicate m (.start first)) where
  within purpose hmem := by
    rcases List.mem_cons.mp hmem with rfl | hmem
    · exact ⟨le_rfl, le_rfl⟩
    · rw [List.eq_of_mem_replicate hmem]
      exact ⟨le_rfl, Nat.lt_succ_self first⟩
  slices := by
    rw [List.countP_cons_of_pos rfl, List.countP_replicate]
    simp [isSlice]
  starts i := by
    rw [List.count_cons_of_ne (by simp), List.count_replicate]
    split_ifs
    · exact hm
    · exact Nat.zero_le _
  total := by
    rw [List.length_cons, List.length_replicate]
    omega

/-- A batch whose first part is all that is sent again. -/
theorem leftPart (hm : 0 < m) (hlt : m < count) (h : Batch retries first m purposes) :
    Batch retries first count (.slice first count :: purposes) where
  within purpose hmem := by
    rcases List.mem_cons.mp hmem with rfl | hmem
    · exact ⟨le_rfl, le_rfl⟩
    · exact (h.within purpose hmem).mono le_rfl (by omega)
  slices := by
    have hslices := h.slices
    rw [List.countP_cons_of_pos rfl]
    omega
  starts i := by
    rw [List.count_cons_of_ne (by simp)]
    exact h.starts i
  total := by
    have htotal := h.total
    have hmul : retries * m ≤ retries * count := Nat.mul_le_mul_left retries hlt.le
    rw [List.length_cons]
    omega

/-- A batch that is sent again in two parts. A text is in one of them only. -/
theorem twoParts (hm : 0 < m) (hlt : m < count) (hleft : Batch retries first m left)
    (hright : Batch retries (first + m) (count - m) right) :
    Batch retries first count (.slice first count :: (left ++ right)) where
  within purpose hmem := by
    rcases List.mem_cons.mp hmem with rfl | hmem
    · exact ⟨le_rfl, le_rfl⟩
    · rcases List.mem_append.mp hmem with hmem | hmem
      · exact (hleft.within purpose hmem).mono le_rfl (by omega)
      · exact (hright.within purpose hmem).mono (by omega) (by omega)
  slices := by
    have hleftSlices := hleft.slices
    have hrightSlices := hright.slices
    rw [List.countP_cons_of_pos rfl, List.countP_append]
    omega
  starts i := by
    rw [List.count_cons_of_ne (by simp), List.count_append]
    rcases Nat.lt_or_ge i (first + m) with hi | hi
    · rw [hright.count_start_eq_zero (.inl hi), Nat.add_zero]
      exact hleft.starts i
    · rw [hleft.count_start_eq_zero (.inr hi), Nat.zero_add]
      exact hright.starts i
  total := by
    have hleftTotal := hleft.total
    have hrightTotal := hright.total
    have hmul : retries * m + retries * (count - m) = retries * count := by
      rw [← Nat.mul_add, Nat.add_sub_of_le hlt.le]
    rw [List.length_cons, List.length_append]
    omega

end Batch

end Purpose

/-! ## One text -/

namespace ShrinkPolicy

variable {p : ShrinkPolicy} {texts : List String} {calls : List (Call V)}

/-- There are no more starts than attempts. -/
theorem length_starts_le (p : ShrinkPolicy) (text : String) :
    (p.starts text).length ≤ p.retries := by
  rw [starts, startsFrom, List.length_map, lengths]
  exact (List.takeWhile_prefix _).length_le.trans (List.length_iterate ..).le

/-- A start of a text has at least one character of it to offer. -/
theorem exists_length_of_mem_starts {text start : String} (h : start ∈ p.starts text) :
    ∃ length, 0 < length ∧ start = truncate text length := by
  obtain ⟨length, hlength, rfl⟩ := List.mem_map.mp h
  exact ⟨length, Nat.pos_of_ne_zero (by simpa using List.mem_takeWhile_imp hlength), rfl⟩

/-- While a text is shortened, each start of it is sent at most once. -/
theorem explains_of_shortens {starts : List String} {result : Except EmbedError (Option V)}
    (h : Shortens starts calls result) {text : String} {i : Nat} (hi : texts[i]? = some text)
    (hstarts : ∀ start ∈ starts, ∃ length, 0 < length ∧ start = truncate text length) :
    calls.length ≤ starts.length ∧
      List.Forall₂ (Purpose.Explains texts) (List.replicate calls.length (.start i)) calls := by
  have hcall {start : String} (hmem : start ∈ starts) (answer : Except EmbedError (List V)) :
      Purpose.Explains texts (.start i) ⟨[start], answer⟩ := by
    obtain ⟨length, hlength, rfl⟩ := hstarts start hmem
    exact .start hi hlength
  induction h with
  | exhausted => exact ⟨le_rfl, .nil⟩
  | fits v => exact ⟨by simp, .cons (hcall List.mem_cons_self _) .nil⟩
  | miscounted length_ne => exact ⟨by simp, .cons (hcall List.mem_cons_self _) .nil⟩
  | failed detail => exact ⟨by simp, .cons (hcall List.mem_cons_self _) .nil⟩
  | refused detail _ ih =>
    obtain ⟨hlength, hlater⟩ := ih (fun start hmem => hstarts start (List.mem_cons_of_mem _ hmem))
      fun hmem => hcall (List.mem_cons_of_mem _ hmem)
    exact ⟨Nat.succ_le_succ hlength, .cons (hcall List.mem_cons_self _) hlater⟩

/-! ## One batch -/

/-- The calls for a batch are bounded. Both halves of a batch stand in the same input, so the
induction is over the calls, for every place of the batch. -/
theorem explains_of_sends {chunk : List String} {result : Except EmbedError (List (Option V))}
    (h : p.Sends chunk calls result) {first : Nat} (hne : chunk ≠ [])
    (hfirst : chunk <+: texts.drop first) :
    ∃ purposes, List.Forall₂ (Purpose.Explains texts) purposes calls ∧
      Purpose.Batch p.retries first chunk.length purposes := by
  induction h generalizing first with
  | answered _ => exact ⟨_, .cons (.slice hne hfirst) .nil, .once (List.length_pos_iff.mpr hne)⟩
  | miscounted _ => exact ⟨_, .cons (.slice hne hfirst) .nil, .once (List.length_pos_iff.mpr hne)⟩
  | failed _ => exact ⟨_, .cons (.slice hne hfirst) .nil, .once (List.length_pos_iff.mpr hne)⟩
  | nothing _ => exact absurd rfl hne
  | @shortened text calls result detail starts =>
    have htext : texts[first]? = some text := by
      obtain ⟨later, hlater⟩ := hfirst
      rw [← List.head?_drop, ← hlater]
      rfl
    obtain ⟨hcalls, hexplains⟩ := explains_of_shortens starts htext
      fun start hmem => exists_length_of_mem_starts hmem
    exact ⟨_, .cons (.slice hne hfirst) hexplains,
      .shortened (hcalls.trans (p.length_starts_le text))⟩
  | @leftFails chunk calls e detail two_le _ ih =>
    obtain ⟨purposes, hexplains, hbatch⟩ := ih (Purpose.take_half_ne_nil two_le)
      ((List.take_prefix _ _).trans hfirst)
    rw [List.length_take, Nat.min_eq_left (by omega)] at hbatch
    exact ⟨_, .cons (.slice hne hfirst) hexplains, hbatch.leftPart (by omega) (by omega)⟩
  | @halves chunk leftCalls rightCalls slots result detail two_le _ _ ihLeft ihRight =>
    obtain ⟨left, hleft, hleftBatch⟩ := ihLeft (Purpose.take_half_ne_nil two_le)
      ((List.take_prefix _ _).trans hfirst)
    have hsecond : chunk.drop (chunk.length / 2) <+: texts.drop (first + chunk.length / 2) := by
      rw [← List.drop_drop]
      exact hfirst.drop _
    obtain ⟨right, hright, hrightBatch⟩ := ihRight (Purpose.drop_half_ne_nil two_le) hsecond
    rw [List.length_take, Nat.min_eq_left (by omega)] at hleftBatch
    rw [List.length_drop] at hrightBatch
    exact ⟨_, .cons (.slice hne hfirst) (List.rel_append hleft hright),
      hleftBatch.twoParts (by omega) (by omega) hrightBatch⟩

end ShrinkPolicy

/-! ## All batches -/

namespace Batching

/-- The calls of a run are bounded, batch by batch. What is left after a batch is a later part of
the same texts, so the induction is over the calls, for every number `k` of batches before. -/
theorem explains_of_sendsAll {b : Batching} {texts rest : List String} {calls : List (Call V)}
    {result : Except EmbedError (List (Option V))} (h : b.SendsAll rest calls result) {k : Nat}
    (hrest : rest = texts.drop (k * b.size)) :
    ∃ rounds : List (List Purpose),
      List.Forall₂ (Purpose.Explains texts) rounds.flatten calls ∧
      ∀ j round, rounds[j]? = some round →
        (texts.drop ((k + j) * b.size)).take b.size ≠ [] ∧
        Purpose.Batch b.policy.retries ((k + j) * b.size)
          ((texts.drop ((k + j) * b.size)).take b.size).length round := by
  induction h generalizing k with
  | done => exact ⟨[], .nil, fun j round hround => by simp at hround⟩
  | @fails rest calls e ne_nil first =>
    subst hrest
    have hne : (texts.drop (k * b.size)).take b.size ≠ [] := by
      simpa [b.size_pos.ne'] using ne_nil
    obtain ⟨round, hexplains, hbatch⟩ :=
      ShrinkPolicy.explains_of_sends first hne (List.take_prefix _ _)
    refine ⟨[round], by simpa using hexplains, ?_⟩
    intro j round' hround
    match j, hround with
    | 0, rfl => exact ⟨hne, hbatch⟩
  | @next rest firstCalls laterCalls slots result ne_nil first later ih =>
    subst hrest
    have hne : (texts.drop (k * b.size)).take b.size ≠ [] := by
      simpa [b.size_pos.ne'] using ne_nil
    obtain ⟨round, hexplains, hbatch⟩ :=
      ShrinkPolicy.explains_of_sends first hne (List.take_prefix _ _)
    obtain ⟨rounds, hrounds, hbatches⟩ := ih (k := k + 1)
      (by rw [List.drop_drop, Nat.succ_mul])
    refine ⟨round :: rounds, List.rel_append hexplains hrounds, ?_⟩
    intro j round' hround
    match j, hround with
    | 0, rfl => exact ⟨hne, hbatch⟩
    | j + 1, hround =>
      rw [← Nat.add_assoc, Nat.add_right_comm]
      exact hbatches j round' hround

/-- A batch takes at most two calls for each of its texts, and the attempts to shorten it. -/
theorem length_le_of_sends {p : ShrinkPolicy} {chunk : List String} {calls : List (Call V)}
    {result : Except EmbedError (List (Option V))} (h : p.Sends chunk calls result)
    (hne : chunk ≠ []) : calls.length ≤ (2 + p.retries) * chunk.length := by
  have hwhole : chunk <+: chunk.drop 0 := List.prefix_refl chunk
  obtain ⟨purposes, hexplains, hbatch⟩ := ShrinkPolicy.explains_of_sends h hne hwhole
  have htotal := hbatch.total
  rw [← hexplains.length_eq, Nat.add_mul]
  omega

/-- So does a run. -/
theorem length_le_of_sendsAll {b : Batching} {texts : List String} {calls : List (Call V)}
    {result : Except EmbedError (List (Option V))} (h : b.SendsAll texts calls result) :
    calls.length ≤ (2 + b.policy.retries) * texts.length := by
  have hbatch {texts : List String} (hne : texts ≠ []) : texts.take b.size ≠ [] := by
    simpa [b.size_pos.ne'] using hne
  induction h with
  | done => exact Nat.zero_le _
  | @fails texts calls e ne_nil first =>
    refine (length_le_of_sends first (hbatch ne_nil)).trans (Nat.mul_le_mul_left _ ?_)
    exact List.length_take_le' _ _
  | @next texts firstCalls laterCalls slots result ne_nil first _ ih =>
    rw [← List.take_append_drop b.size texts, List.length_append, List.length_append, Nat.mul_add]
    exact Nat.add_le_add (length_le_of_sends first (hbatch ne_nil)) ih

/-- A call whose purpose concerns no more texts than fit into a batch sends a text, and no more than
these. -/
theorem length_asked_of_explains {texts : List String} {size first count : Nat} {purpose : Purpose}
    {call : Call V} (hexplains : purpose.Explains texts call) (hwithin : purpose.Within first count)
    (hcount : count ≤ size) (hsize : 0 < size) :
    1 ≤ call.asked.length ∧ call.asked.length ≤ size := by
  cases hexplains with
  | @slice at' chunk answer ne_nil at_first =>
    obtain ⟨hlow, hhigh⟩ := hwithin
    have hlength : chunk.length ≤ count := by omega
    exact ⟨List.length_pos_iff.mpr ne_nil, hlength.trans hcount⟩
  | start at_index pos => exact ⟨le_rfl, hsize⟩

/-- **Recovery is bounded**, whatever the provider does. The calls of a run fall into rounds, one
for each batch until one fails. A call of a round sends a slice of its batch or a start of one of
its texts; for `c` texts there are at most `2 * c - 1` slices, and each text is shortened at most as
often as the policy says. No call is empty or longer than a batch may be, and a run of `n` texts
comes to its end within `(2 + p.retries) * n` calls. -/
theorem calls_bounded (size : Nat) (p : ShrinkPolicy) (provider : Provider σ V)
    (texts : List String) (s : σ) :
    let b : Batching := ⟨Settings.clampBatch size, p, Settings.clampBatch_pos size⟩
    let batch (k : Nat) : List String := (texts.drop (k * b.size)).take b.size
    (∃ rounds : List (List Purpose),
      List.Forall₂ (Purpose.Explains texts) rounds.flatten (b.calls provider texts s) ∧
      ∀ k round, rounds[k]? = some round →
        batch k ≠ [] ∧ Purpose.Batch p.retries (k * b.size) (batch k).length round) ∧
    (∀ call ∈ b.calls provider texts s,
      1 ≤ call.asked.length ∧ call.asked.length ≤ Settings.clampBatch size) ∧
    (b.calls provider texts s).length ≤ (2 + p.retries) * texts.length := by
  intro b batch
  have hcalls := sendsAll_calls provider b texts s
  have hwhole : texts = texts.drop (0 * b.size) := by rw [Nat.zero_mul, List.drop_zero]
  obtain ⟨rounds, hexplains, hrounds⟩ := explains_of_sendsAll hcalls hwhole
  simp only [Nat.zero_add] at hrounds
  refine ⟨⟨rounds, hexplains, hrounds⟩, ?_, length_le_of_sendsAll hcalls⟩
  intro call hcall
  obtain ⟨i, hi, rfl⟩ := List.getElem_of_mem hcall
  have hi' : i < rounds.flatten.length := hexplains.length_eq ▸ hi
  obtain ⟨round, hround, hmem⟩ := List.mem_flatten.mp (List.getElem_mem hi')
  obtain ⟨k, hk⟩ := List.mem_iff_getElem?.mp hround
  exact length_asked_of_explains (hexplains.get hi' hi) ((hrounds k round hk).2.within _ hmem)
    (List.length_take_le _ _) b.size_pos

end Batching

end CodeAtlas
