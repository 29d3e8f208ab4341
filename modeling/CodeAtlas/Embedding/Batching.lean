import CodeAtlas.Embedding.Basic
import CodeAtlas.Text.Basic

/-!
# Batches

Texts are sent to a provider in batches of bounded size, and the answers are lined up with the texts
again. A batch that is too long is cut in two halves, each of which is tried on its own; a single
text that is too long is shortened, again and again, until it fits or the attempts are used up. Any
other failure ends the whole call.

* `Batching.embedLenient` — one slot for each text, empty for a text that never fitted.
* `Batching.embed` — the same where an empty slot is a failure.
-/

namespace CodeAtlas

open CodeAtlas.Text

/-- How a text that is too long is shortened. -/
structure ShrinkPolicy where
  /-- the part of its length that is kept each time -/
  factor : Float32
  /-- how often it is shortened -/
  retries : Nat

/-- The length that follows `length` when a text is shortened: the product with the factor, without
what is behind the point. -/
def ShrinkPolicy.next (p : ShrinkPolicy) (length : Nat) : Nat :=
  (Float32.ofNat length * p.factor).toUInt64.toNat

/-- A way of sending texts to a provider. -/
structure Batching where
  /-- how many texts are sent at once -/
  size : Nat
  /-- how texts are shortened -/
  policy : ShrinkPolicy
  /-- something is sent at once -/
  size_pos : 0 < size

namespace Batching

variable {σ V : Type}

/-- The error of an answer with the wrong number of vectors. -/
def miscount (vectors : Nat) (inputs : String) : EmbedError :=
  .provider s!"provider returned {vectors} vectors for {inputs}"

/-- Tries ever shorter starts of a text, the one of the length after `length` first. -/
def shrink (provider : Provider σ V) (policy : ShrinkPolicy) (text : String) :
    Nat → Nat → σ → Except EmbedError (Option V) × σ
  | 0, _, s => (.ok none, s)
  | retries + 1, length, s =>
    let length := policy.next length
    if length = 0 then (.ok none, s)
    else
      match provider.embed [truncate text length] s with
      | (.ok [v], s) => (.ok (some v), s)
      | (.ok vs, s) => (.error (miscount vs.length "1 input"), s)
      | (.error (.tooLong _), s) => shrink provider policy text retries length s
      | (.error e, s) => (.error e, s)

/-- Sends one batch, in halves if it is too long. -/
def embedChunk (provider : Provider σ V) (policy : ShrinkPolicy) (chunk : List String) (s : σ) :
    Except EmbedError (List (Option V)) × σ :=
  match provider.embed chunk s with
  | (.ok vs, s) =>
    if vs.length = chunk.length then (.ok (vs.map some), s)
    else (.error (miscount vs.length s!"{chunk.length} inputs"), s)
  | (.error (.provider detail), s) => (.error (.provider detail), s)
  | (.error (.tooLong _), s) =>
    match chunk with
    | [] => (.ok [], s)
    | [text] =>
      match shrink provider policy text policy.retries text.length s with
      | (.ok slot, s) => (.ok [slot], s)
      | (.error e, s) => (.error e, s)
    | first :: second :: rest =>
      let middle := (first :: second :: rest).length / 2
      match embedChunk provider policy ((first :: second :: rest).take middle) s with
      | (.error e, s) => (.error e, s)
      | (.ok left, s) =>
        match embedChunk provider policy ((first :: second :: rest).drop middle) s with
        | (.error e, s) => (.error e, s)
        | (.ok right, s) => (.ok (left ++ right), s)
termination_by chunk.length
decreasing_by
  · simp only [List.length_take, List.length_cons]; omega
  · simp only [List.length_drop, List.length_cons]; omega

/-- Sends batches of at most `size` texts, one after the other. -/
def embedBatches (provider : Provider σ V) (policy : ShrinkPolicy) (size : Nat)
    (size_pos : 0 < size) (texts : List String) (s : σ) :
    Except EmbedError (List (Option V)) × σ :=
  match texts with
  | [] => (.ok [], s)
  | text :: rest =>
    match embedChunk provider policy ((text :: rest).take size) s with
    | (.error e, s) => (.error e, s)
    | (.ok slots, s) =>
      match embedBatches provider policy size size_pos ((text :: rest).drop size) s with
      | (.error e, s) => (.error e, s)
      | (.ok more, s) => (.ok (slots ++ more), s)
termination_by texts.length
decreasing_by simp only [List.length_drop, List.length_cons]; omega

/-- One slot for each text, empty for a text that never fitted. -/
def embedLenient (b : Batching) (provider : Provider σ V) (texts : List String) (s : σ) :
    Except EmbedError (List (Option V)) × σ :=
  embedBatches provider b.policy b.size b.size_pos texts s

/-- The values of slots none of which is empty; the first empty one is an error. -/
def fill (b : Batching) : Nat → List (Option V) → Except EmbedError (List V)
  | _, [] => .ok []
  | i, none :: _ =>
    .error (.tooLong s!"input {i} still too long after {b.policy.retries} shrink retries")
  | i, some v :: slots => (fill b (i + 1) slots).map (v :: ·)

/-- One vector for each text. -/
def embed (b : Batching) (provider : Provider σ V) (texts : List String) (s : σ) :
    Except EmbedError (List V) × σ :=
  match b.embedLenient provider texts s with
  | (.ok slots, s) => (b.fill 0 slots, s)
  | (.error e, s) => (.error e, s)

/-- The vector of one text. -/
def embedOne (b : Batching) (provider : Provider σ V) (text : String) (s : σ) :
    Except EmbedError V × σ :=
  match b.embed provider [text] s with
  | (.ok vs, s) =>
    match vs.getLast? with
    | some v => (.ok v, s)
    | none => (.error (.provider "provider returned no vector"), s)
  | (.error e, s) => (.error e, s)

end Batching

end CodeAtlas
