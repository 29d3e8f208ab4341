import CodeAtlas.Proofs.Embedding.Stateless

/-!
# What becomes of each text

Setup: texts are sent to any provider at all, one that may remember things, fail at will, and answer
differently every time. When the call ends well there is one slot for each text, in order
(**`Batching.settles_of_embedLenient`**), and each slot tells what happened to its own text
(`ShrinkPolicy.Settles`):

* a vector came for the text itself, at its place in some request; or
* the text was refused as too long, and so were its starts one after the other, until a vector came
  for one of them; or
* the text and all its starts were refused, and the slot is empty.

Nothing is assumed about the provider, so the proof only follows the call: the shortening of one
text, the halves of one batch, the batches of one call.
-/

namespace CodeAtlas

open CodeAtlas.Text

variable {σ V : Type}

/-- The provider refuses some texts as too long, each sent alone, one after the other. -/
inductive Provider.Refuses (provider : Provider σ V) : List String → σ → σ → Prop where
  /-- nothing is sent -/
  | nothing (s : σ) : Refuses provider [] s s
  /-- the first text is refused, and then the others are -/
  | next {text : String} {texts : List String} {s s₁ s₂ : σ} {detail : String}
      (refused : provider.embed [text] s = (.error (.tooLong detail), s₁))
      (others : Refuses provider texts s₁ s₂) : Refuses provider (text :: texts) s s₂

/-- A request is answered with the right number of vectors, and `v` is the one for `text`. -/
structure Provider.Delivers (provider : Provider σ V) (asked : List String) (vectors : List V)
    (text : String) (v : V) : Prop where
  /-- this is the answer to the request -/
  answered : ∃ s s', provider.embed asked s = (.ok vectors, s')
  /-- there is a vector for each text -/
  length_eq : vectors.length = asked.length
  /-- the vector stands where the text stands -/
  mem : (text, v) ∈ asked.zip vectors

/-- How a text can come by its slot. -/
inductive ShrinkPolicy.Settles (p : ShrinkPolicy) (provider : Provider σ V) (text : String) :
    Option V → Prop where
  /-- a vector came for the text itself -/
  | whole {asked : List String} {vectors : List V} {v : V}
      (delivered : provider.Delivers asked vectors text v) : Settles p provider text (some v)
  /-- the text and some of its starts were refused, and a vector came for the next start -/
  | start {earlier later : List String} {start : String} {v : V} {s s₁ s₂ : σ}
      (starts : p.starts text = earlier ++ start :: later)
      (refused : provider.Refuses (text :: earlier) s s₁)
      (answered : provider.embed [start] s₁ = (.ok [v], s₂)) : Settles p provider text (some v)
  /-- the text and all its starts were refused -/
  | empty {s s₁ : σ} (refused : provider.Refuses (text :: p.starts text) s s₁) :
      Settles p provider text none

namespace Batching

variable {provider : Provider σ V} {p : ShrinkPolicy} {text : String}

/-! ## One text -/

/-- How shortening can end: every start was refused, or all before the one that got a vector. The
attempts are counted down while the length changes, so the induction is over the attempts, for every
length. -/
theorem shrink_cases {retries length : Nat} {s s' : σ} {slot : Option V}
    (h : shrink provider p text retries length s = (.ok slot, s')) :
    let starts := p.startsFrom text retries length
    (slot = none ∧ provider.Refuses starts s s') ∨
    ∃ earlier start later v s₁, slot = some v ∧ starts = earlier ++ start :: later ∧
      provider.Refuses earlier s s₁ ∧ provider.embed [start] s₁ = (.ok [v], s') := by
  induction retries generalizing length s with
  | zero =>
    cases h
    exact .inl ⟨rfl, .nothing _⟩
  | succ retries ih =>
    rw [shrink] at h
    by_cases hzero : p.next length = 0
    · simp only [if_pos hzero] at h
      cases h
      rw [ShrinkPolicy.startsFrom_of_eq_zero hzero]
      exact .inl ⟨rfl, .nothing _⟩
    · simp only [if_neg hzero] at h
      rw [ShrinkPolicy.startsFrom_of_ne_zero hzero]
      split at h
      · next v s₁ hcall =>
        cases h
        exact .inr ⟨[], _, _, v, _, rfl, rfl, .nothing _, hcall⟩
      · cases h
      · next detail s₁ hcall =>
        rcases ih h with ⟨hslot, hrefused⟩ |
          ⟨earlier, start, later, v, s₂, hslot, hstarts, hrefused,
          hanswered⟩
        · exact .inl ⟨hslot, .next hcall hrefused⟩
        · refine .inr
            ⟨_ :: earlier, start, later, v, s₂, hslot, ?_, .next hcall hrefused, hanswered⟩
          rw [hstarts, List.cons_append]
      · cases h

/-- A text that was refused settles by being shortened. -/
theorem settles_of_shrink {s s₁ s' : σ} {detail : String} {slot : Option V}
    (hrefused : provider.embed [text] s = (.error (.tooLong detail), s₁))
    (h : shrink provider p text p.retries text.length s₁ = (.ok slot, s')) :
    p.Settles provider text slot := by
  rcases shrink_cases h with ⟨rfl, hall⟩ | ⟨earlier, start, later, v, s₂, rfl, hstarts, hearlier,
    hanswered⟩
  · exact .empty (.next hrefused hall)
  · exact .start hstarts (.next hrefused hearlier) hanswered

/-! ## One batch -/

/-- The texts of a batch that is answered settle whole. -/
theorem forall₂_settles_of_answer {asked : List String} {vectors : List V} {s s' : σ}
    (hcall : provider.embed asked s = (.ok vectors, s')) (hlength : vectors.length = asked.length) :
    List.Forall₂ (p.Settles provider) asked (vectors.map some) := by
  rw [List.forall₂_map_right_iff, List.forall₂_iff_zip]
  exact ⟨hlength.symm, fun hmem => .whole ⟨⟨s, s', hcall⟩, hlength, hmem⟩⟩

/-- Texts that are sent in two parts settle when those of each part do. -/
theorem settles_of_parts {texts : List String} {n : Nat} {left right : List (Option V)}
    (hleft : List.Forall₂ (p.Settles provider) (texts.take n) left)
    (hright : List.Forall₂ (p.Settles provider) (texts.drop n) right) :
    List.Forall₂ (p.Settles provider) texts (left ++ right) := by
  rw [← List.take_append_drop n texts]
  exact List.rel_append hleft hright

/-- Each text of a batch settles. The halves are shorter than the batch, so the induction is over
its length. -/
theorem settles_of_embedChunk {chunk : List String} {s s' : σ} {slots : List (Option V)}
    (h : embedChunk provider p chunk s = (.ok slots, s')) :
    List.Forall₂ (p.Settles provider) chunk slots := by
  induction hn : chunk.length using Nat.strong_induction_on generalizing chunk s s' slots with
  | _ n ih =>
    subst hn
    rw [embedChunk] at h
    split at h
    · next vectors s₁ hcall =>
      split_ifs at h with hlength
      · cases h
        exact forall₂_settles_of_answer hcall hlength
      · cases h
    · cases h
    · next detail s₁ hcall =>
      split at h
      · cases h
        exact .nil
      · next text =>
        split at h
        · next slot s₂ hshrink =>
          cases h
          exact .cons (settles_of_shrink hcall hshrink) .nil
        · cases h
      · next first second rest =>
        -- both halves of two or more texts are shorter
        dsimp only at h
        split at h
        · cases h
        · next left s₂ hleft =>
          split at h
          · cases h
          · next right s₃ hright =>
            cases h
            exact settles_of_parts
              (ih _ (by simp only [List.length_take, List.length_cons]; omega) hleft rfl)
              (ih _ (by simp only [List.length_drop, List.length_cons]; omega) hright rfl)

/-! ## All batches -/

/-- **Every text settles**, in its own slot, whatever the provider does. -/
theorem settles_of_embedLenient {b : Batching} {texts : List String} {s s' : σ}
    {slots : List (Option V)} (h : b.embedLenient provider texts s = (.ok slots, s')) :
    List.Forall₂ (b.policy.Settles provider) texts slots := by
  rw [embedLenient] at h
  induction hn : texts.length using Nat.strong_induction_on generalizing texts s slots with
  | _ n ih =>
    subst hn
    cases texts with
    | nil =>
      rw [embedBatches] at h
      cases h
      exact .nil
    | cons text rest =>
      rw [embedBatches] at h
      split at h
      · cases h
      · next first s₁ hfirst =>
        split at h
        · cases h
        · next more s₂ hmore =>
          cases h
          have hsize := b.size_pos
          exact settles_of_parts (settles_of_embedChunk hfirst)
            (ih _ (by simp only [List.length_drop, List.length_cons]; omega) hmore rfl)

/-- There are as many slots as texts. -/
theorem length_of_embedLenient {b : Batching} {texts : List String} {s s' : σ}
    {slots : List (Option V)} (h : b.embedLenient provider texts s = (.ok slots, s')) :
    slots.length = texts.length :=
  (settles_of_embedLenient h).length_eq.symm

end Batching

end CodeAtlas
