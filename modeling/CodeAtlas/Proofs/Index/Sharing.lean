import CodeAtlas.Index.Sharing
import Mathlib.Tactic

/-!
# No stale index after a drop

Readers and droppers share the three slots, and their actions come in any order. The headline
theorem is **`no_stale_index`**: when a dropper is done, every index that a later reader gets comes
from a walk that began after that dropper came.

A dropper empties the slots one after the other, so no single moment separates old values from new
ones. What does is the pair of a slot's content and of the values that are under way to it:

* a task that is going to put a value into a slot has the slot's lock (`Task.Carries.holds`), and a
  lock has one owner (`Locked`), so nothing is under way to a slot at the moment when a dropper
  empties it;
* what is put into the slot of an index comes from the slot of the corpus, or from a walk, and the
  corpus is emptied first.

So once a dropper has emptied a slot, all that is in the slot or under way to it is new (`Newer`),
whatever the readers did before and do after.
-/

namespace CodeAtlas.SharedSlots

variable {γ δ : Type}

/-- One of the three locks. -/
inductive Lock where
  /-- the lock of the corpus -/
  | corpus
  /-- the lock of an index -/
  | index (kind : IndexKind)
  deriving DecidableEq

namespace Slots

/-- Who has a lock. -/
def owner (s : Slots γ δ) : Lock → Option Nat
  | .corpus => s.corpus.owner
  | .index kind => (s.index kind).owner

/-- When the walk began that the value in a slot comes from. -/
def keptFrom (s : Slots γ δ) : Lock → Option Nat
  | .corpus => s.corpus.slot.kept.map (·.value.began)
  | .index kind => (s.index kind).slot.kept.map (·.value.began)

@[simp] theorem index_withIndex_self (s : Slots γ δ) (kind : IndexKind) (g : Guarded δ) :
    (s.withIndex kind g).index kind = g := if_pos rfl

theorem index_withIndex_of_ne (s : Slots γ δ) {kind k : IndexKind} (g : Guarded δ) (h : k ≠ kind) :
    (s.withIndex kind g).index k = s.index k := if_neg h

/-- Another slot for an index leaves the other locks alone. -/
theorem owner_withIndex_of_ne (s : Slots γ δ) {kind : IndexKind} {l : Lock} (g : Guarded δ)
    (h : l ≠ .index kind) : (s.withIndex kind g).owner l = s.owner l := by
  cases l with
  | corpus => rfl
  | index k => exact congrArg Guarded.owner (s.index_withIndex_of_ne g (mt (congrArg Lock.index) h))

/-- Another slot for an index leaves the other values alone. -/
theorem keptFrom_withIndex_of_ne (s : Slots γ δ) {kind : IndexKind} {l : Lock} (g : Guarded δ)
    (h : l ≠ .index kind) : (s.withIndex kind g).keptFrom l = s.keptFrom l := by
  cases l with
  | corpus => rfl
  | index k => simp only [keptFrom, s.index_withIndex_of_ne g (mt (congrArg Lock.index) h)]

end Slots

/-- A fresh value is the one that is kept. -/
theorem kept_of_fresh {α : Type} {slot : Slot (Derived α)} {now : Nat} {value : Derived α}
    (h : slot.fresh? now = some value) : slot.kept.map (·.value.began) = some value.began := by
  unfold Slot.fresh? at h
  split at h
  · next snapshot hkept =>
    split at h
    · obtain rfl := Option.some.inj h
      rw [hkept]
      rfl
    · cases h
  · cases h

/-- A lock is taken only when nobody has it. -/
theorem Guarded.lock?_eq_some {α : Type} {g g' : Guarded α} {task : Nat}
    (h : g.lock? task = some g') : g.owner = none ∧ g' = { g with owner := some task } := by
  unfold Guarded.lock? at h
  split at h
  · next hfree => exact ⟨Option.isNone_iff_eq_none.mp hfree, (Option.some.inj h).symm⟩
  · cases h

/-- A slot is emptied only when nobody has its lock. -/
theorem Guarded.clear?_eq_some {α : Type} {g g' : Guarded α} (h : g.clear? = some g') :
    g.owner = none ∧ g' = { g with slot := g.slot.clear } := by
  unfold Guarded.clear? at h
  split at h
  · next hfree => exact ⟨Option.isNone_iff_eq_none.mp hfree, (Option.some.inj h).symm⟩
  · cases h

namespace Left

/-- The slots that a dropper has emptied already. -/
def Emptied : Left → Lock → Prop
  | .all, _ => False
  | .indexes, l => l = .corpus
  | .identifiers, l => l = .corpus ∨ l = .index .files
  | .nothing, _ => True

/-- The corpus is emptied before the indexes. -/
theorem Emptied.corpus {left : Left} {l : Lock} (h : left.Emptied l) : left.Emptied .corpus := by
  cases left with
  | all => exact h
  | indexes => exact rfl
  | identifiers => exact .inl rfl
  | nothing => trivial

end Left

namespace Task

/-- The locks that a task has. -/
def Holds : Task γ δ → Lock → Prop
  | .looking kind, l => l = .index kind
  | .needing kind, l => l = .index kind
  | .seeking kind, l => l = .index kind ∨ l = .corpus
  | .walking kind _, l => l = .index kind ∨ l = .corpus
  | .building kind _, l => l = .index kind
  | .failing kind, l => l = .index kind
  | .asking _, _ => False
  | .answered _ _, _ => False
  | .dropping _ _, _ => False

/-- A task is on its way to put a value into a slot, from a walk that began with the move `n`. -/
def Carries : Task γ δ → Lock → Nat → Prop
  | .walking _ began, l, n => l = .corpus ∧ n = began
  | .building kind corpus, l, n => l = .index kind ∧ n = corpus.began
  | _, _, _ => False

/-- Whoever is going to put a value into a slot has its lock. -/
theorem Carries.holds {t : Task γ δ} {l : Lock} {n : Nat} (h : t.Carries l n) : t.Holds l := by
  cases t with
  | walking kind began => exact .inr h.1
  | building kind corpus => exact h.1
  | _ => exact h.elim

/-! ## What one action can do

`Effect` says of an action all that the invariants need; `effect_of_step` is the only place where
the actions are gone through one by one. -/

/-- What an action of the task with the number `i`, done as the move `clock`, can do to the task and
to the slots. -/
structure Effect (i clock : Nat) (t t' : Task γ δ) (s s' : Slots γ δ) : Prop where
  /-- a dropper that is done does nothing any more -/
  busy : ∀ began, t ≠ .dropping began .nothing
  /-- a lock keeps its owner, or was free and is taken, or is given back -/
  owner : ∀ l, (s'.owner l = s.owner l ∧ (t'.Holds l → t.Holds l)) ∨
    (s.owner l = none ∧ s'.owner l = some i) ∨ (t.Holds l ∧ s'.owner l = none ∧ ¬ t'.Holds l)
  /-- what is in a slot was there before, or was under way to it -/
  kept : ∀ l n, s'.keptFrom l = some n → s.keptFrom l = some n ∨ t.Carries l n
  /-- what is under way comes from a walk that begins now, or it goes to an index, from the corpus
  -/
  carries : ∀ l n, t'.Carries l n → n = clock ∨
    ∃ kind, l = .index kind ∧ (s.keptFrom .corpus = some n ∨ t.Carries .corpus n)
  /-- an index that is given was in the slot, or is put there now -/
  answered : ∀ kind index, t' = .answered kind (some index) →
    s.keptFrom (.index kind) = some index.began ∨ t.Carries (.index kind) index.began
  /-- a dropper empties one more slot, whose lock is free -/
  dropped : ∀ began left', t' = .dropping began left' → ∃ left l, t = .dropping began left ∧
    s.owner l = none ∧ s'.keptFrom l = none ∧ ∀ l', left'.Emptied l' → left.Emptied l' ∨ l' = l

/-- An action that changes the slot of one index only. What it does is said of that slot alone. -/
theorem Effect.ofIndex {i clock : Nat} {t t' : Task γ δ} {s : Slots γ δ} {kind : IndexKind}
    {g : Guarded δ} (hbusy : ∀ began, t ≠ .dropping began .nothing)
    (hother : ∀ l, l ≠ .index kind → t'.Holds l → t.Holds l)
    (howner : (g.owner = (s.index kind).owner ∧ (t'.Holds (.index kind) → t.Holds (.index kind))) ∨
      ((s.index kind).owner = none ∧ g.owner = some i) ∨
      (t.Holds (.index kind) ∧ g.owner = none ∧ ¬ t'.Holds (.index kind)))
    (hkept : ∀ n, g.slot.kept.map (·.value.began) = some n →
      (s.index kind).slot.kept.map (·.value.began) = some n ∨ t.Carries (.index kind) n)
    (hcarries : ∀ l n, ¬ t'.Carries l n)
    (hanswered : ∀ k index, t' = .answered k (some index) →
      s.keptFrom (.index k) = some index.began ∨ t.Carries (.index k) index.began)
    (hdropped : ∀ began left', t' = .dropping began left' → ∃ left, t = .dropping began left ∧
      (s.index kind).owner = none ∧ g.slot.kept = none ∧
      ∀ l, left'.Emptied l → left.Emptied l ∨ l = .index kind) :
    Effect i clock t t' s (s.withIndex kind g) where
  busy := hbusy
  owner l := by
    rcases eq_or_ne l (.index kind) with rfl | hl
    · simpa only [Slots.owner, Slots.index_withIndex_self] using howner
    · exact .inl ⟨s.owner_withIndex_of_ne g hl, hother l hl⟩
  kept l n h := by
    rcases eq_or_ne l (.index kind) with rfl | hl
    · simp only [Slots.keptFrom, Slots.index_withIndex_self] at h
      exact hkept n h
    · rw [s.keptFrom_withIndex_of_ne g hl] at h
      exact .inl h
  carries l n h := absurd h (hcarries l n)
  answered := hanswered
  dropped began left' h := by
    obtain ⟨left, ht, hfree, hnone, hleft⟩ := hdropped began left' h
    refine ⟨left, .index kind, ht, hfree, ?_, hleft⟩
    simp only [Slots.keptFrom, Slots.index_withIndex_self, hnone, Option.map_none]

/-- An action that changes the slot of the corpus only. -/
theorem Effect.ofCorpus {i clock : Nat} {t t' : Task γ δ} {s : Slots γ δ} {g : Guarded γ}
    (hbusy : ∀ began, t ≠ .dropping began .nothing)
    (hother : ∀ l, l ≠ .corpus → t'.Holds l → t.Holds l)
    (howner : (g.owner = s.corpus.owner ∧ (t'.Holds .corpus → t.Holds .corpus)) ∨
      (s.corpus.owner = none ∧ g.owner = some i) ∨
      (t.Holds .corpus ∧ g.owner = none ∧ ¬ t'.Holds .corpus))
    (hkept : ∀ n, g.slot.kept.map (·.value.began) = some n →
      s.corpus.slot.kept.map (·.value.began) = some n ∨ t.Carries .corpus n)
    (hcarries : ∀ l n, t'.Carries l n → n = clock ∨
      ∃ kind, l = .index kind ∧ (s.keptFrom .corpus = some n ∨ t.Carries .corpus n))
    (hanswered : ∀ k index, t' ≠ .answered k (some index))
    (hdropped : ∀ began left', t' = .dropping began left' → ∃ left, t = .dropping began left ∧
      s.corpus.owner = none ∧ g.slot.kept = none ∧
      ∀ l, left'.Emptied l → left.Emptied l ∨ l = .corpus) :
    Effect i clock t t' s { s with corpus := g } where
  busy := hbusy
  owner l := by
    cases l with
    | corpus => exact howner
    | index kind => exact .inl ⟨rfl, hother _ (by simp)⟩
  kept l n h := by
    cases l with
    | corpus => exact hkept n h
    | index kind => exact .inl h
  carries := hcarries
  answered kind index h := absurd h (hanswered kind index)
  dropped began left' h := by
    obtain ⟨left, ht, hfree, hnone, hleft⟩ := hdropped began left' h
    exact ⟨left, .corpus, ht, hfree, by simp only [Slots.keptFrom, hnone, Option.map_none], hleft⟩

/-- A dropper that empties the slot of an index whose lock is free. -/
theorem Effect.clearIndex {i clock began : Nat} {left left' : Left} {s : Slots γ δ}
    {kind : IndexKind} (hbusy : left ≠ .nothing) (hfree : (s.index kind).owner = none)
    (hleft : ∀ l, left'.Emptied l → left.Emptied l ∨ l = .index kind) :
    Effect i clock (.dropping began left) (.dropping began left') s
      (s.withIndex kind { s.index kind with slot := (s.index kind).slot.clear }) := by
  refine .ofIndex (fun _ h => ?_) (by simp [Holds]) (.inl ⟨rfl, id⟩) (by simp [Slot.clear])
    (by simp [Carries]) (by simp) ?_
  · cases h
    exact hbusy rfl
  · rintro began' left'' ⟨⟩
    exact ⟨left, rfl, hfree, rfl, hleft⟩

/-- **What an action can do.** -/
theorem effect_of_step {i clock now : Nat} {walked : Option γ} {built : Option δ} {t t' : Task γ δ}
    {s s' : Slots γ δ} (h : t.step i clock now walked built s = some (t', s')) :
    Effect i clock t t' s s' := by
  cases t with
  | asking kind =>
    obtain ⟨g, hg, heq⟩ := Option.map_eq_some_iff.mp h
    obtain ⟨hfree, rfl⟩ := Guarded.lock?_eq_some hg
    cases heq
    exact .ofIndex (by simp) (fun l hl h => absurd h hl) (.inr (.inl ⟨hfree, rfl⟩))
      (fun n h => .inl h) (by simp [Carries]) (by simp) (by simp)
  | looking kind =>
    simp only [step] at h
    split at h
    · next index hfresh =>
      -- the index in the slot is the answer
      cases h
      refine .ofIndex (by simp) (by simp [Holds]) (.inr (.inr ⟨rfl, rfl, by simp [Holds]⟩))
        (fun n h => .inl h) (by simp [Carries]) ?_ (by simp)
      rintro k index' ⟨⟩
      exact .inl (kept_of_fresh hfresh)
    · cases h
      exact ⟨by simp, fun l => .inl ⟨rfl, id⟩,
        fun l n h => .inl h, by simp [Carries], by simp, by simp⟩
  | needing kind =>
    obtain ⟨g, hg, heq⟩ := Option.map_eq_some_iff.mp h
    obtain ⟨hfree, rfl⟩ := Guarded.lock?_eq_some hg
    cases heq
    exact .ofCorpus (by simp) (by simp +contextual [Holds]) (.inr (.inl ⟨hfree, rfl⟩))
      (fun n h => .inl h) (by simp [Carries]) (by simp) (by simp)
  | seeking kind =>
    simp only [step] at h
    split at h
    · next corpus hfresh =>
      -- the index will be made from the corpus in the slot
      cases h
      refine .ofCorpus (by simp) (fun l _ => .inl) (.inr (.inr ⟨.inr rfl, rfl, by simp [Holds]⟩))
        (fun n h => .inl h) ?_ (by simp) (by simp)
      rintro l n ⟨rfl, rfl⟩
      exact .inr ⟨kind, rfl, .inl (kept_of_fresh hfresh)⟩
    · cases h
      exact ⟨by simp, fun l => .inl ⟨rfl, id⟩, fun l n h => .inl h,
        fun l n h => .inl h.2, by simp, by simp⟩
  | walking kind began =>
    simp only [step] at h
    split at h
    · next value =>
      -- the walk is put into the slot, and the index is made from it
      cases h
      refine .ofCorpus (by simp) (fun l _ => .inl) (.inr (.inr ⟨.inr rfl, rfl, by simp [Holds]⟩)) ?_
        ?_ (by simp) (by simp)
      · intro n hn
        exact .inr ⟨rfl, (Option.some.inj hn).symm⟩
      · rintro l n ⟨rfl, rfl⟩
        exact .inr ⟨kind, rfl, .inr ⟨rfl, rfl⟩⟩
    · cases h
      exact .ofCorpus (by simp) (fun l _ => .inl) (.inr (.inr ⟨.inr rfl, rfl, by simp [Holds]⟩))
        (fun n h => .inl h) (by simp [Carries]) (by simp) (by simp)
  | building kind corpus =>
    simp only [step] at h
    split at h
    · next value =>
      -- the index is put into the slot and is the answer
      cases h
      refine .ofIndex (by simp) (by simp [Holds]) (.inr (.inr ⟨rfl, rfl, by simp [Holds]⟩)) ?_
        (by simp [Carries]) ?_ (by simp)
      · intro n hn
        exact .inr ⟨rfl, (Option.some.inj hn).symm⟩
      · rintro k index ⟨⟩
        exact .inr ⟨rfl, rfl⟩
    · cases h
      exact .ofIndex (by simp) (by simp [Holds]) (.inr (.inr ⟨rfl, rfl, by simp [Holds]⟩))
        (fun n h => .inl h) (by simp [Carries]) (by simp) (by simp)
  | failing kind =>
    cases h
    exact .ofIndex (by simp) (by simp [Holds]) (.inr (.inr ⟨rfl, rfl, by simp [Holds]⟩))
      (fun n h => .inl h) (by simp [Carries]) (by simp) (by simp)
  | answered kind index => cases h
  | dropping began left =>
    cases left with
    | nothing => cases h
    | all =>
      obtain ⟨g, hg, heq⟩ := Option.map_eq_some_iff.mp h
      obtain ⟨hfree, rfl⟩ := Guarded.clear?_eq_some hg
      cases heq
      refine .ofCorpus (by simp) (by simp [Holds]) (.inl ⟨rfl, id⟩) (by simp [Slot.clear])
        (by simp [Carries]) (by simp) ?_
      rintro began' left' ⟨⟩
      exact ⟨.all, rfl, hfree, rfl, fun l hl => .inr hl⟩
    | indexes =>
      obtain ⟨g, hg, heq⟩ := Option.map_eq_some_iff.mp h
      obtain ⟨hfree, rfl⟩ := Guarded.clear?_eq_some hg
      cases heq
      exact .clearIndex (by simp) hfree fun l hl => hl
    | identifiers =>
      obtain ⟨g, hg, heq⟩ := Option.map_eq_some_iff.mp h
      obtain ⟨hfree, rfl⟩ := Guarded.clear?_eq_some hg
      cases heq
      refine .clearIndex (by simp) hfree fun l _ => ?_
      -- all three slots are empty now
      match l with
      | .corpus => exact .inl (.inl rfl)
      | .index .files => exact .inl (.inr rfl)
      | .index .identifiers => exact .inr rfl

end Task

/-! ## Invariants

Three things hold at every moment: a lock has at most one owner, everything that a dropper has left
behind is new, and, after a dropper is done, so is every answer to a later reader. -/

namespace System

/-- Whoever has a lock is its owner. -/
def Locked (s : System γ δ) : Prop :=
  ∀ (i : Nat) (t : Task γ δ) l, s.tasks[i]? = some t → t.Holds l → s.slots.owner l = some i

/-- What is in a slot or under way to it comes from a walk that began after the move `began`. -/
def Newer (began : Nat) (s : System γ δ) (l : Lock) : Prop :=
  (∀ n, s.slots.keptFrom l = some n → began < n) ∧
    ∀ (i : Nat) (t : Task γ δ) n, s.tasks[i]? = some t → t.Carries l n → began < n

/-- A dropper that came with the move `began` leaves nothing old in the slots it has emptied. -/
def Dropped (s : System γ δ) : Prop :=
  ∀ (i began : Nat) (left : Left), s.tasks[i]? = some (.dropping began left) →
    began < s.clock ∧ ∀ l, left.Emptied l → s.Newer began l

/-- Both invariants. -/
structure Sound (s : System γ δ) : Prop where
  /-- a lock has at most one owner -/
  locked : s.Locked
  /-- what a dropper has left behind is new -/
  dropped : s.Dropped

/-- The system at the start is sound: there are no tasks. -/
theorem sound_start (root : String) (lifetime : Nat) : (start root lifetime : System γ δ).Sound :=
  ⟨fun i t l h => by simp [start] at h, fun i began left h => by simp [start] at h⟩

/-- The system after a task has come. -/
def coming (s : System γ δ) (t : Task γ δ) : System γ δ :=
  { s with tasks := s.tasks ++ [t], clock := s.clock + 1 }

/-- The tasks after one has come: the others are as they were, and the new one is the last. -/
theorem tasks_coming {s : System γ δ} {j : Nat} {t u : Task γ δ}
    (h : (s.coming t).tasks[j]? = some u) : s.tasks[j]? = some u ∨ u = t := by
  simp only [coming, List.getElem?_append] at h
  split at h
  · exact .inl h
  · exact .inr (List.mem_singleton.mp (List.mem_of_getElem? h))

/-- A task that was there is still there. -/
theorem tasks_coming_of_some {s : System γ δ} {j : Nat} {u : Task γ δ} (t : Task γ δ)
    (h : s.tasks[j]? = some u) : (s.coming t).tasks[j]? = some u := by
  obtain ⟨hlt, -⟩ := List.getElem?_eq_some_iff.mp h
  rw [coming, List.getElem?_append_left hlt]
  exact h

/-- The system after an action of a task. -/
def after (s : System γ δ) (i : Nat) (t : Task γ δ) (slots : Slots γ δ) : System γ δ :=
  { s with slots := slots, tasks := s.tasks.set i t, clock := s.clock + 1 }

/-- The tasks after an action: the one that acted, and the others as they were. -/
theorem tasks_after {s : System γ δ} {i j : Nat} {t t' u : Task γ δ} {slots : Slots γ δ}
    (h : (s.after i t' slots).tasks[j]? = some u) (ht : s.tasks[i]? = some t) :
    (j = i ∧ u = t') ∨ (j ≠ i ∧ s.tasks[j]? = some u) := by
  simp only [after, List.getElem?_set] at h
  split at h
  · next hij =>
    obtain ⟨hlt, -⟩ := List.getElem?_eq_some_iff.mp ht
    rw [if_pos hlt] at h
    exact .inl ⟨hij.symm, (Option.some.inj h).symm⟩
  · next hij => exact .inr ⟨fun h => hij h.symm, h⟩

/-- What can happen to the system: a task comes, a task acts, or time goes by. -/
theorem move?_eq_some {s s' : System γ δ} {m : Move γ δ} (h : s.move? m = some s') :
    (∃ kind, s' = s.coming (.asking kind)) ∨ s' = s.coming (.dropping s.clock .all) ∨
    (∃ i t t' slots, s.tasks[i]? = some t ∧ t.Effect i s.clock t' s.slots slots ∧
      s' = s.after i t' slots) ∨
    (∃ millis, s' = { s with now := s.now + millis, clock := s.clock + 1 }) := by
  cases m with
  | ask kind => exact .inl ⟨kind, (Option.some.inj h).symm⟩
  | drop => exact .inr (.inl (Option.some.inj h).symm)
  | step i walked built =>
    obtain ⟨t, ht, h⟩ := Option.bind_eq_some_iff.mp h
    obtain ⟨⟨t', slots⟩, hstep, h⟩ := Option.bind_eq_some_iff.mp h
    exact .inr
      (.inr (.inl ⟨i, t, t', slots, ht, Task.effect_of_step hstep, (Option.some.inj h).symm⟩))
  | wait millis => exact .inr (.inr (.inr ⟨millis, (Option.some.inj h).symm⟩))

/-- What is new in a slot stays new through any action, if what is in the corpus is new too: an
index is made from the corpus. -/
theorem Newer.after {s : System γ δ} {i began : Nat} {t t' : Task γ δ} {slots : Slots γ δ}
    {l : Lock} (hl : s.Newer began l) (hc : s.Newer began .corpus) (hclock : began < s.clock)
    (ht : s.tasks[i]? = some t) (he : t.Effect i s.clock t' s.slots slots) :
    (s.after i t' slots).Newer began l := by
  refine ⟨fun n hn => ?_, fun j u n hu hn => ?_⟩
  · rcases he.kept l n hn with hkept | hcarries
    · exact hl.1 n hkept
    · exact hl.2 i t n ht hcarries
  · rcases tasks_after hu ht with ⟨-, rfl⟩ | ⟨-, hu⟩
    · rcases he.carries l n hn with rfl | ⟨kind, -, hkept | hcarries⟩
      · exact hclock
      · exact hc.1 n hkept
      · exact hc.2 i t n ht hcarries
    · exact hl.2 j u n hu hn

/-- When a lock is free nothing is under way to its slot. -/
theorem Locked.not_carries {s : System γ δ} (hs : s.Locked) {i n : Nat} {t : Task γ δ} {l : Lock}
    (ht : s.tasks[i]? = some t) (hfree : s.slots.owner l = none) : ¬ t.Carries l n := by
  intro hcarries
  have howner := hs i t l ht hcarries.holds
  rw [hfree] at howner
  cases howner

/-- An action keeps the owners of the locks apart. -/
theorem Locked.after {s : System γ δ} {i : Nat} {t t' : Task γ δ} {slots : Slots γ δ}
    (hs : s.Locked) (ht : s.tasks[i]? = some t) (he : t.Effect i s.clock t' s.slots slots) :
    (s.after i t' slots).Locked := by
  intro j u l hu hholds
  rcases tasks_after hu ht with ⟨rfl, rfl⟩ | ⟨hji, hu⟩
  · rcases he.owner l with ⟨hsame, hheld⟩ | ⟨-, htaken⟩ | ⟨-, -, hnot⟩
    · exact hsame.trans (hs j t l ht (hheld hholds))
    · exact htaken
    · exact absurd hholds hnot
  · have howner := hs j u l hu hholds
    rcases he.owner l with ⟨hsame, -⟩ | ⟨hfree, -⟩ | ⟨hheld, -, -⟩
    · exact hsame.trans howner
    · rw [hfree] at howner
      cases howner
    · rw [hs i t l ht hheld] at howner
      exact absurd (Option.some.inj howner).symm hji

/-- An action keeps what is left behind new. The slot that a dropper empties now has a free lock, so
nothing old can be under way to it. -/
theorem Dropped.after {s : System γ δ} {i : Nat} {t t' : Task γ δ} {slots : Slots γ δ}
    (hs : s.Dropped) (hlocked : s.Locked) (ht : s.tasks[i]? = some t)
    (he : t.Effect i s.clock t' s.slots slots) : (s.after i t' slots).Dropped := by
  intro j began left hj
  rcases tasks_after hj ht with ⟨-, hdrop⟩ | ⟨-, hj⟩
  · obtain ⟨left, l, rfl, hfree, hnone, hleft⟩ := he.dropped began _ hdrop.symm
    obtain ⟨hclock, hnew⟩ := hs i began left ht
    refine ⟨hclock.trans (Nat.lt_succ_self _), fun l' hl' => ?_⟩
    rcases hleft l' hl' with hl' | rfl
    · exact (hnew l' hl').after (hnew _ hl'.corpus) hclock ht he
    -- the slot emptied now: whoever was under way to it would have its lock
    · refine ⟨fun n hn => ?_, fun k u n hu hn => ?_⟩
      · rw [show (s.after i t' slots).slots.keptFrom l' = none from hnone] at hn
        cases hn
      · rcases tasks_after hu ht with ⟨-, rfl⟩ | ⟨-, hu⟩
        · rw [← hdrop] at hn
          exact hn.elim
        · exact absurd hn (hlocked.not_carries hu hfree)
  · obtain ⟨hclock, hnew⟩ := hs j began left hj
    exact ⟨hclock.trans (Nat.lt_succ_self _),
      fun l hl => (hnew l hl).after (hnew _ hl.corpus) hclock ht he⟩

/-- A task that comes has no lock and is not on its way to any slot. -/
theorem Sound.coming {s : System γ δ} (hs : s.Sound) {t : Task γ δ} (hholds : ∀ l, ¬ t.Holds l)
    (hdrop : ∀ began left, t = .dropping began left → began = s.clock ∧ left = .all) :
    (s.coming t).Sound := by
  refine ⟨fun j u l hu hl => ?_, fun j began left hj => ?_⟩
  · rcases tasks_coming hu with hu | rfl
    · exact hs.locked j u l hu hl
    · exact absurd hl (hholds l)
  · rcases tasks_coming hj with hj | hj
    · obtain ⟨hclock, hnew⟩ := hs.dropped j began left hj
      refine ⟨hclock.trans (Nat.lt_succ_self _), fun l hl => ⟨(hnew l hl).1, fun k u n hu hn => ?_⟩⟩
      rcases tasks_coming hu with hu | rfl
      · exact (hnew l hl).2 k u n hu hn
      · exact absurd hn.holds (hholds l)
    · obtain ⟨rfl, rfl⟩ := hdrop began left hj.symm
      exact ⟨Nat.lt_succ_self _, fun l hl => hl.elim⟩

/-- **One move keeps the system sound.** -/
theorem Sound.move? {s s' : System γ δ} {m : Move γ δ} (hs : s.Sound) (h : s.move? m = some s') :
    s'.Sound := by
  rcases move?_eq_some h with ⟨kind, rfl⟩ | rfl | ⟨i, t, t', slots, ht, he, rfl⟩ | ⟨millis, rfl⟩
  · exact hs.coming (by simp [Task.Holds]) (by simp)
  · refine hs.coming (by simp [Task.Holds]) ?_
    rintro began left ⟨⟩
    exact ⟨rfl, rfl⟩
  · exact ⟨hs.locked.after ht he, hs.dropped.after hs.locked ht he⟩
  · refine ⟨hs.locked, fun i began left hi => ?_⟩
    obtain ⟨hclock, hnew⟩ := hs.dropped i began left hi
    exact ⟨hclock.trans (Nat.lt_succ_self _), hnew⟩

/-- A property that every possible move keeps is kept by a run. -/
theorem run_induction {P : System γ δ → Prop}
    (hstep : ∀ s s' m, P s → s.move? m = some s' → P s') {s : System γ δ} (hs : P s)
    (moves : List (Move γ δ)) : P (s.run moves) := by
  induction moves generalizing s with
  | nil => exact hs
  | cons m moves ih =>
    refine ih ?_
    unfold System.move
    cases h : s.move? m with
    | none => exact hs
    | some s' => exact hstep s s' m hs h

/-- **Every reachable system is sound.** -/
theorem sound_run (root : String) (lifetime : Nat) (moves : List (Move γ δ)) :
    ((start root lifetime).run moves).Sound :=
  run_induction (fun _ _ _ hs h => hs.move? h) (sound_start root lifetime) moves

/-! ## After a dropper is done -/

/-- The dropper with the number `j` is done, and the tasks from the number `count` on got new
indexes. -/
structure Renewed (began j count : Nat) (s : System γ δ) : Prop where
  /-- the system is sound -/
  sound : s.Sound
  /-- the dropper is done -/
  done : s.tasks[j]? = some (.dropping began .nothing)
  /-- the later answers are new -/
  answered : ∀ (i : Nat) kind index, count ≤ i →
    s.tasks[i]? = some (.answered kind (some index)) → began < index.began

/-- When a dropper is done all slots are new. -/
theorem Renewed.newer {s : System γ δ} {began j count : Nat} (hs : s.Renewed began j count)
    (l : Lock) : s.Newer began l :=
  (hs.sound.dropped j began .nothing hs.done).2 l trivial

/-- One move keeps the later answers new: an index that is given was in its slot or under way to it.
-/
theorem Renewed.move? {s s' : System γ δ} {m : Move γ δ} {began j count : Nat}
    (hs : s.Renewed began j count) (h : s.move? m = some s') : s'.Renewed began j count := by
  refine ⟨hs.sound.move? h, ?_, fun i kind index hi hans => ?_⟩
  · rcases move?_eq_some h with ⟨kind, rfl⟩ | rfl | ⟨i, t, t', slots, ht, he, rfl⟩ | ⟨millis, rfl⟩
    · exact tasks_coming_of_some _ hs.done
    · exact tasks_coming_of_some _ hs.done
    -- a dropper that is done does not act, so another task acted
    · have hij : i ≠ j := by
        rintro rfl
        rw [hs.done] at ht
        exact he.busy began (Option.some.inj ht).symm
      rw [System.after, List.getElem?_set_ne hij]
      exact hs.done
    · exact hs.done
  · rcases move?_eq_some h with ⟨k, rfl⟩ | rfl | ⟨k, t, t', slots, ht, he, rfl⟩ | ⟨millis, rfl⟩
    · rcases tasks_coming hans with hans | hans
      · exact hs.answered i kind index hi hans
      · cases hans
    · rcases tasks_coming hans with hans | hans
      · exact hs.answered i kind index hi hans
      · cases hans
    · rcases tasks_after hans ht with ⟨rfl, hu⟩ | ⟨-, hu⟩
      · rcases he.answered kind index hu.symm with hkept | hcarries
        · exact (hs.newer _).1 _ hkept
        · exact (hs.newer _).2 _ t _ ht hcarries
      · exact hs.answered i kind index hi hu
    · exact hs.answered i kind index hi hans

/-- **No stale index.** The moves `before` end with a dropper done, and the moves `later` follow. A
reader that comes with one of the later moves never gets an index from a walk that began before that
dropper came. -/
theorem no_stale_index (root : String) (lifetime : Nat) (before later : List (Move γ δ))
    {i j began : Nat} {kind : IndexKind} {index : Derived δ}
    (hdone : ((start root lifetime).run before).tasks[j]? = some (.dropping began .nothing))
    (hlater : ((start root lifetime).run before).tasks.length ≤ i)
    (hanswer : (((start root lifetime).run before).run later).tasks[i]? =
      some (.answered kind (some index))) : began < index.began := by
  have hstart : ((start root lifetime).run before).Renewed began j
      ((start root lifetime).run before).tasks.length := by
    refine ⟨sound_run root lifetime before, hdone, fun k _ _ hk hans => ?_⟩
    obtain ⟨hlt, -⟩ := List.getElem?_eq_some_iff.mp hans
    exact absurd hlt (Nat.not_lt.mpr hk)
  have hend : (((start root lifetime).run before).run later).Renewed began j
      ((start root lifetime).run before).tasks.length :=
    run_induction (fun _ _ _ hs h => hs.move? h) hstart later
  exact hend.answered i kind index hlater hanswer

/-- A dropper comes while a reader walks the tree, and it empties the corpus while that reader still
builds its index from the old corpus. -/
def overlap : List (Move Nat Nat) :=
  [.ask .files, .step 0 none none, .step 0 none none, .step 0 none none, .step 0 none none, .drop,
    .step 0 (some 1) none, .step 1 none none, .step 0 none (some 1), .step 1 none none,
    .step 1 none none]

/-- A reader comes, finds nothing, and makes everything anew. -/
def anew : List (Move Nat Nat) :=
  [.ask .files, .step 2 none none, .step 2 none none, .step 2 none none, .step 2 none none,
    .step 2 (some 2) none, .step 2 none (some 2)]

/-- The first reader keeps its index from the walk that began with the move 4; the second one gets
an index from a walk that began with the move 15, after the dropper came with the move 5. -/
theorem no_stale_index_overlap :
    ((start "/repo" 1000).run overlap).tasks[0]? = some (.answered .files (some ⟨1, 4⟩)) ∧
      (((start "/repo" 1000).run overlap).run anew).tasks[2]? =
        some (.answered .files (some ⟨2, 15⟩)) ∧ 5 < 15 :=
  have hlater : ((start "/repo" 1000).run overlap).tasks.length ≤ 2 := le_refl 2
  have hanswer : (((start "/repo" 1000).run overlap).run anew).tasks[2]? =
      some (.answered .files (some ⟨2, 15⟩)) := rfl
  ⟨rfl, hanswer, no_stale_index "/repo" 1000 overlap anew (j := 1) rfl hlater hanswer⟩

end System

end CodeAtlas.SharedSlots
