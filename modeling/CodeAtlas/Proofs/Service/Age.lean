import CodeAtlas.Proofs.Index.Refresh
import CodeAtlas.Service.Basic

/-!
# How old an index can be

Setup: indexes are asked for one after the other, in any order, while time passes and the world
changes as it likes. An answer takes no time. A corpus is given again while it is fresh, and so is
an index; an index that is made of a fresh corpus is fresh itself, however old the corpus is. The
ages add up:

* an index that is given was made less than a lifetime ago, of what was walked less than a lifetime
  before, so less than two lifetimes ago (**`Service.Reaches.age_lt`**);
* almost two lifetimes are possible (**`Service.reaches_late`**): an index is asked for at the end
  of the corpus's lifetime, and again at the end of its own. So one lifetime is no bound
  (**`Service.not_age_le_lifetime`**).

`Service.Reaches` describes the schedules, with the moments at which an index was asked for: these
are the only ones at which a tree is walked or an index made. `Service.Traced` is the invariant:
whatever stands in a slot comes from such moments.
-/

namespace CodeAtlas

variable {σ ℓ α : Type}

/-! ## Slots -/

/-- A fresh value is the one that was kept, and younger than the lifetime. -/
theorem Slot.fresh?_eq_some_iff {slot : Slot α} {now : Nat} {value : α} :
    slot.fresh? now = some value ↔
      ∃ madeAt, slot.kept = some ⟨value, madeAt⟩ ∧ now - madeAt < slot.lifetime := by
  rw [fresh?]
  cases hkept : slot.kept with
  | none => simp
  | some kept =>
    obtain ⟨value', madeAt⟩ := kept
    have hsome : (⟨value', madeAt⟩ : Snapshot α).age now = now - madeAt := rfl
    simp only [Option.some.injEq, Snapshot.mk.injEq, hsome, Option.ite_none_right_eq_some]
    constructor
    · rintro ⟨hage, rfl⟩
      exact ⟨madeAt, ⟨rfl, rfl⟩, hage⟩
    · rintro ⟨madeAt', ⟨rfl, rfl⟩, hage⟩
      exact ⟨hage, rfl⟩

/-- An empty slot holds nothing fresh. -/
theorem Slot.fresh?_of_empty {slot : Slot α} {now : Nat} (h : slot.kept = none) :
    slot.fresh? now = none := by
  rw [fresh?, h]

namespace Service

variable {service : Service σ ℓ}

/-- How long a snapshot is fresh, in milliseconds. -/
def lifetime (service : Service σ ℓ) : Nat :=
  service.settings.freshSeconds * 1000

/-- A moment at which the world is looked at. -/
structure Moment (σ : Type) where
  /-- the time, in milliseconds -/
  time : Nat
  /-- what the world is then -/
  world : World σ

/-- The moment of a state. -/
def State.moment (s : State σ ℓ) : Moment σ :=
  ⟨s.now, s.world⟩

/-- The state after an answer, be it given or refused. -/
def after (answer : Answer σ ℓ α) (s : State σ ℓ) : State σ ℓ :=
  match answer s with
  | .ok _ s' => s'
  | .error _ s' => s'

/-! ## Asking for an index -/

/-- An index from its slot, or else a new one made of the corpus. -/
def ask (service : Service σ ℓ) (slot : SlotIn (State σ ℓ) α)
    (build : Corpus → Work σ EmbedError α) :
    Answer σ ℓ α :=
  slot.freshOr do working (build (← service.takeCorpus))

theorem fileIndex_eq_ask : service.fileIndex = service.ask fileSlot service.indexer.buildFiles :=
  rfl

theorem identifierIndex_eq_ask :
    service.identifierIndex = service.ask identifierSlot service.indexer.buildIdentifiers :=
  rfl

/-- A fresh corpus is given. -/
theorem takeCorpus_of_fresh {s : State σ ℓ} {corpus : Corpus}
    (hfresh : s.corpus.fresh? s.now = some corpus) :
    service.takeCorpus s = .ok corpus s := by
  simp only [takeCorpus, SlotIn.freshOr, corpusSlot, hfresh]

/-- A corpus that is not fresh is collected. -/
theorem takeCorpus_of_stale {s : State σ ℓ} (hstale : s.corpus.fresh? s.now = none) :
    service.takeCorpus s = .ok (service.indexer.collect s.world.disk)
      { s with corpus := s.corpus.keep (service.indexer.collect s.world.disk) s.now } := by
  simp only [takeCorpus, SlotIn.freshOr, corpusSlot, hstale]

/-- The corpus is always given: a fresh one, or else what is collected now. -/
theorem takeCorpus_cases (service : Service σ ℓ) (s : State σ ℓ) :
    (∃ corpus, s.corpus.fresh? s.now = some corpus ∧ service.takeCorpus s = .ok corpus s) ∨
    (s.corpus.fresh? s.now = none ∧
      service.takeCorpus s = .ok (service.indexer.collect s.world.disk)
        { s with corpus := s.corpus.keep (service.indexer.collect s.world.disk) s.now }) := by
  cases hslot : s.corpus.fresh? s.now with
  | some corpus => exact .inl ⟨corpus, rfl, takeCorpus_of_fresh hslot⟩
  | none => exact .inr ⟨rfl, takeCorpus_of_stale hslot⟩

/-- What asking for an index can do: a fresh one is given and nothing changes; or one is made of the
corpus, and kept; or that fails, and the corpus is kept. -/
theorem ask_cases (service : Service σ ℓ) (slot : SlotIn (State σ ℓ) α)
    (build : Corpus → Work σ EmbedError α) (s : State σ ℓ) :
    (∃ value, (slot.get s).fresh? (slot.now s) = some value ∧
      service.ask slot build s = .ok value s) ∨
    ((slot.get s).fresh? (slot.now s) = none ∧ ∃ corpus s₁, service.takeCorpus s = .ok corpus s₁ ∧
      ((∃ value world, build corpus s₁.world = .ok value world ∧
        service.ask slot build s = .ok value
          (slot.set ((slot.get { s₁ with world := world }).keep value
            (slot.now { s₁ with world := world })) { s₁ with world := world })) ∨
      ∃ e world, build corpus s₁.world = .error e world ∧
        service.ask slot build s = .error (.indexing e) { s₁ with world := world })) := by
  simp only [ask, SlotIn.freshOr]
  cases (slot.get s).fresh? (slot.now s) with
  | some value => exact .inl ⟨value, rfl, rfl⟩
  | none =>
    refine .inr ⟨rfl, ?_⟩
    obtain ⟨corpus, s₁, htake⟩ : ∃ corpus s₁, service.takeCorpus s = .ok corpus s₁ := by
      rcases takeCorpus_cases service s with ⟨corpus, -, htake⟩ | ⟨-, htake⟩
      · exact ⟨_, _, htake⟩
      · exact ⟨_, _, htake⟩
    refine ⟨corpus, s₁, htake, ?_⟩
    simp only [bind, EStateM.bind, htake, working]
    cases build corpus s₁.world with
    | ok value world => exact .inl ⟨value, world, rfl, rfl⟩
    | error e world => exact .inr ⟨e, world, rfl, rfl⟩

/-- A fresh index is given. -/
theorem ask_of_fresh {slot : SlotIn (State σ ℓ) α} {build : Corpus → Work σ EmbedError α}
    {s : State σ ℓ} {value : α} (hfresh : (slot.get s).fresh? (slot.now s) = some value) :
    service.ask slot build s = .ok value s := by
  simp only [ask, SlotIn.freshOr, hfresh]

/-- Without a fresh index, one is made of the corpus and kept. -/
theorem ask_of_stale {slot : SlotIn (State σ ℓ) α} {build : Corpus → Work σ EmbedError α}
    {s s₁ : State σ ℓ} {corpus : Corpus} {value : α} {world : World σ}
    (hstale : (slot.get s).fresh? (slot.now s) = none)
    (htake : service.takeCorpus s = .ok corpus s₁)
    (hbuild : build corpus s₁.world = .ok value world) :
    service.ask slot build s = .ok value (slot.set ((slot.get { s₁ with world := world }).keep value
      (slot.now { s₁ with world := world })) { s₁ with world := world }) := by
  simp only [ask, SlotIn.freshOr, hstale, bind, EStateM.bind, htake, working, hbuild]

section

variable {s s₁ : State σ ℓ} {corpus : Corpus} {world : World σ}

theorem after_fileIndex {index : FileIndex} (hstale : s.files.fresh? s.now = none)
    (htake : service.takeCorpus s = .ok corpus s₁)
    (hbuild : service.indexer.buildFiles corpus s₁.world = .ok index world) :
    after service.fileIndex s =
      { s₁ with world := world, files := s₁.files.keep index s₁.now } := by
  rw [after, fileIndex_eq_ask, ask_of_stale hstale htake hbuild]
  rfl

theorem after_identifierIndex {index : IdentifierIndex} (hstale : s.identifiers.fresh? s.now = none)
    (htake : service.takeCorpus s = .ok corpus s₁)
    (hbuild : service.indexer.buildIdentifiers corpus s₁.world = .ok index world) :
    after service.identifierIndex s =
      { s₁ with world := world, identifiers := s₁.identifiers.keep index s₁.now } := by
  rw [after, identifierIndex_eq_ask, ask_of_stale hstale htake hbuild]
  rfl

end

/-! ## Schedules -/

/-- What can become of a service that is asked for its indexes, with the moments at which it was
asked. -/
inductive Reaches (service : Service σ ℓ) : List (Moment σ) → State σ ℓ → Prop where
  /-- nothing has happened -/
  | start (world : World σ) (labels : ℓ) (now : Nat) :
      Reaches service [] (service.start world labels now)
  /-- the index of files is asked for -/
  | askFiles {asked : List (Moment σ)} {s : State σ ℓ} (h : Reaches service asked s) :
      Reaches service (asked ++ [s.moment]) (after service.fileIndex s)
  /-- the index of identifiers is asked for -/
  | askIdentifiers {asked : List (Moment σ)} {s : State σ ℓ} (h : Reaches service asked s) :
      Reaches service (asked ++ [s.moment]) (after service.identifierIndex s)
  /-- time passes -/
  | elapse {asked : List (Moment σ)} {s : State σ ℓ} (h : Reaches service asked s) (span : Nat) :
      Reaches service asked { s with now := s.now + span }
  /-- the world changes -/
  | change {asked : List (Moment σ)} {s : State σ ℓ} (h : Reaches service asked s)
      (world : World σ) :
      Reaches service asked { s with world := world }

/-- An index was made at the time `madeAt` of what was walked less than a lifetime before, both when
somebody asked. -/
def Made (service : Service σ ℓ) (build : Corpus → Work σ EmbedError α) (asked : List (Moment σ))
    (value : α) (madeAt : Nat) : Prop :=
  ∃ walk ∈ asked, ∃ made ∈ asked, ∃ world, made.time = madeAt ∧ walk.time ≤ madeAt ∧
    madeAt < walk.time + service.lifetime ∧
    build (service.indexer.collect walk.world.disk) made.world = .ok value world

theorem Made.mono {build : Corpus → Work σ EmbedError α} {asked more : List (Moment σ)} {value : α}
    {madeAt : Nat} (h : service.Made build asked value madeAt) (hsub : asked ⊆ more) :
    service.Made build more value madeAt := by
  obtain ⟨walk, hwalk, made, hmade, world, hrest⟩ := h
  exact ⟨walk, hsub hwalk, made, hsub hmade, world, hrest⟩

/-- What stands in the slots comes from moments at which somebody asked. -/
structure Traced (service : Service σ ℓ) (asked : List (Moment σ)) (s : State σ ℓ) : Prop where
  /-- nobody asked later than now -/
  past : ∀ moment ∈ asked, moment.time ≤ s.now
  /-- the slot of the corpus has the lifetime of the service -/
  corpus_lifetime : s.corpus.lifetime = service.lifetime
  /-- so has the slot of the index of files -/
  files_lifetime : s.files.lifetime = service.lifetime
  /-- so has the slot of the index of identifiers -/
  identifiers_lifetime : s.identifiers.lifetime = service.lifetime
  /-- the corpus was walked when somebody asked -/
  corpus : ∀ corpus madeAt, s.corpus.kept = some ⟨corpus, madeAt⟩ →
    ∃ walk ∈ asked, walk.time = madeAt ∧ corpus = service.indexer.collect walk.world.disk
  /-- the index of files was made of a fresh corpus -/
  files : ∀ index madeAt, s.files.kept = some ⟨index, madeAt⟩ →
    service.Made service.indexer.buildFiles asked index madeAt
  /-- the index of identifiers was made of a fresh corpus -/
  identifiers : ∀ index madeAt, s.identifiers.kept = some ⟨index, madeAt⟩ →
    service.Made service.indexer.buildIdentifiers asked index madeAt

namespace Traced

variable {asked : List (Moment σ)} {s : State σ ℓ}

/-- In the beginning nothing stands in the slots. -/
theorem start (service : Service σ ℓ) (world : World σ) (labels : ℓ) (now : Nat) :
    service.Traced [] (service.start world labels now) where
  past _ hmem := absurd hmem List.not_mem_nil
  corpus_lifetime := rfl
  files_lifetime := rfl
  identifiers_lifetime := rfl
  corpus _ _ hkept := by cases hkept
  files _ _ hkept := by cases hkept
  identifiers _ _ hkept := by cases hkept

/-- That somebody asks now takes nothing away. -/
theorem asking (h : service.Traced asked s) : service.Traced (asked ++ [s.moment]) s where
  past moment hmem := by
    rcases List.mem_append.mp hmem with hmem | hmem
    · exact h.past moment hmem
    · rw [List.mem_singleton.mp hmem]
      exact le_rfl
  corpus_lifetime := h.corpus_lifetime
  files_lifetime := h.files_lifetime
  identifiers_lifetime := h.identifiers_lifetime
  corpus corpus madeAt hkept := by
    obtain ⟨walk, hwalk, hrest⟩ := h.corpus corpus madeAt hkept
    exact ⟨walk, List.mem_append_left _ hwalk, hrest⟩
  files index madeAt hkept := (h.files index madeAt hkept).mono (List.subset_append_left _ _)
  identifiers index madeAt hkept :=
    (h.identifiers index madeAt hkept).mono (List.subset_append_left _ _)

/-- Time that passes changes no slot. -/
theorem elapse (h : service.Traced asked s) (span : Nat) :
    service.Traced asked { s with now := s.now + span } :=
  { h with past := fun moment hmem => Nat.le_add_right_of_le (h.past moment hmem) }

/-- A world that changes changes no slot. -/
theorem change (h : service.Traced asked s) (world : World σ) :
    service.Traced asked { s with world := world } :=
  { h with }

/-- A new index of files is kept. -/
theorem keepFiles (h : service.Traced asked s) {index : FileIndex}
    (hmade : service.Made service.indexer.buildFiles asked index s.now) :
    service.Traced asked { s with files := s.files.keep index s.now } :=
  { h with
    files := by
      intro index' madeAt hkept
      cases hkept
      exact hmade }

/-- A new index of identifiers is kept. -/
theorem keepIdentifiers (h : service.Traced asked s) {index : IdentifierIndex}
    (hmade : service.Made service.indexer.buildIdentifiers asked index s.now) :
    service.Traced asked { s with identifiers := s.identifiers.keep index s.now } :=
  { h with
    identifiers := by
      intro index' madeAt hkept
      cases hkept
      exact hmade }

/-- A corpus that is given was walked less than a lifetime ago, when somebody asked. -/
theorem takeCorpus (h : service.Traced asked s) (hpos : 0 < service.lifetime) {corpus : Corpus}
    {s₁ : State σ ℓ} (htake : service.takeCorpus s = .ok corpus s₁) :
    s₁ = { s with corpus := s₁.corpus } ∧ service.Traced (asked ++ [s.moment]) s₁ ∧
      ∃ walk ∈ asked ++ [s.moment], walk.time ≤ s.now ∧ s.now < walk.time + service.lifetime ∧
        corpus = service.indexer.collect walk.world.disk := by
  have hasking := h.asking
  rcases takeCorpus_cases service s with ⟨kept, hfresh, hkept⟩ | ⟨-, hnew⟩
  · rw [hkept] at htake
    cases htake
    obtain ⟨madeAt, hslot, hage⟩ := Slot.fresh?_eq_some_iff.mp hfresh
    obtain ⟨walk, hwalk, rfl, hcorpus⟩ := hasking.corpus _ madeAt hslot
    have hpast := hasking.past walk hwalk
    rw [h.corpus_lifetime] at hage
    exact ⟨rfl, hasking, walk, hwalk, hpast, by omega, hcorpus⟩
  · rw [hnew] at htake
    cases htake
    have hnow : s.moment ∈ asked ++ [s.moment] :=
      List.mem_append_right _ (List.mem_singleton_self _)
    refine ⟨rfl, { hasking with corpus := ?_ }, s.moment, hnow, le_rfl, ?_, rfl⟩
    · intro corpus madeAt hkept
      cases hkept
      exact ⟨s.moment, hnow, rfl, rfl⟩
    · exact Nat.lt_add_of_pos_right hpos

section Ask

variable {slot : SlotIn (State σ ℓ) α} {build : Corpus → Work σ EmbedError α}

/-- What stands in the slots is traced after an index was asked for. -/
theorem after_ask (h : service.Traced asked s) (hpos : 0 < service.lifetime)
    (hkeep : ∀ {asked : List (Moment σ)} {s : State σ ℓ} {value : α}, service.Traced asked s →
      service.Made build asked value s.now →
      service.Traced asked (slot.set ((slot.get s).keep value (slot.now s)) s)) :
    service.Traced (asked ++ [s.moment]) (after (service.ask slot build) s) := by
  rw [after]
  rcases ask_cases service slot build s with ⟨value, -, hask⟩ | ⟨-, corpus, s₁, htake, hbuild⟩
  · rw [hask]
    exact h.asking
  · obtain ⟨hs₁, htraced, walk, hwalk, hpast, hage, rfl⟩ := h.takeCorpus hpos htake
    rcases hbuild with ⟨value, world, hbuild, hask⟩ | ⟨e, world, -, hask⟩
    · rw [hask]
      refine hkeep (htraced.change world) ?_
      have hnow : s₁.now = s.now := by rw [hs₁]
      have hworld : s₁.world = s.world := by rw [hs₁]
      rw [hworld] at hbuild
      exact ⟨walk, hwalk, s.moment, List.mem_append_right _ (List.mem_singleton_self _), world,
        hnow.symm, hnow ▸ hpast, hnow ▸ hage, hbuild⟩
    · rw [hask]
      exact htraced.change world

/-- An index that is given was made less than a lifetime ago, of a corpus that was fresh then. -/
theorem made_of_ask (h : service.Traced asked s) (hpos : 0 < service.lifetime) {value : α}
    {s' : State σ ℓ} (hask : service.ask slot build s = .ok value s') (hnow : slot.now s = s.now)
    (hlifetime : (slot.get s).lifetime = service.lifetime)
    (hslot : ∀ value madeAt, (slot.get s).kept = some ⟨value, madeAt⟩ →
      service.Made build asked value madeAt) :
    ∃ madeAt, madeAt ≤ s.now ∧ s.now < madeAt + service.lifetime ∧
      service.Made build (asked ++ [s.moment]) value madeAt := by
  rcases ask_cases service slot build s with ⟨kept, hfresh, hkept⟩ | ⟨-, corpus, s₁, htake, hbuild⟩
  · rw [hkept] at hask
    cases hask
    obtain ⟨madeAt, hstands, hage⟩ := Slot.fresh?_eq_some_iff.mp hfresh
    have hmade := hslot value madeAt hstands
    have hpast : madeAt ≤ s.now := by
      obtain ⟨walk, -, made, hmem, world, rfl, -⟩ := hmade
      exact h.past made hmem
    rw [hnow, hlifetime] at hage
    exact ⟨madeAt, hpast, by omega, hmade.mono (List.subset_append_left _ _)⟩
  · obtain ⟨hs₁, -, walk, hwalk, hpast, hage, rfl⟩ := h.takeCorpus hpos htake
    rcases hbuild with ⟨value', world, hbuild, hnew⟩ | ⟨e, world, -, hnew⟩
    · rw [hnew] at hask
      cases hask
      have hworld : s₁.world = s.world := by rw [hs₁]
      rw [hworld] at hbuild
      exact ⟨s.now, le_rfl, Nat.lt_add_of_pos_right hpos, walk, hwalk, s.moment,
        List.mem_append_right _ (List.mem_singleton_self _), world, rfl, hpast, hage, hbuild⟩
    · rw [hnew] at hask
      cases hask

end Ask

end Traced

/-- **The slots are traced** along every schedule. -/
theorem Reaches.traced {asked : List (Moment σ)} {s : State σ ℓ} (h : service.Reaches asked s)
    (hpos : 0 < service.lifetime) : service.Traced asked s := by
  induction h with
  | start world labels now => exact .start service world labels now
  | askFiles _ ih =>
    rw [fileIndex_eq_ask]
    exact ih.after_ask hpos fun htraced hmade => htraced.keepFiles hmade
  | askIdentifiers _ ih =>
    rw [identifierIndex_eq_ask]
    exact ih.after_ask hpos fun htraced hmade => htraced.keepIdentifiers hmade
  | elapse _ span ih => exact ih.elapse span
  | change _ world ih => exact ih.change world

/-! ## Ages -/

/-- The index reflects a walk at one of these moments: it was made of what was collected then. -/
def Reflects (service : Service σ ℓ) (build : Corpus → Work σ EmbedError α)
    (asked : List (Moment σ)) (value : α) (walk made : Moment σ) : Prop :=
  walk ∈ asked ∧ made ∈ asked ∧ walk.time ≤ made.time ∧
    ∃ world, build (service.indexer.collect walk.world.disk) made.world = .ok value world

/-- **An index is less than two lifetimes old.** Whatever is given was made less than a lifetime
ago, of a tree that was walked less than a lifetime before. -/
theorem Reaches.age_lt {asked : List (Moment σ)} {s : State σ ℓ} (h : service.Reaches asked s)
    (hpos : 0 < service.settings.freshSeconds) :
    (∀ index s', service.fileIndex s = .ok index s' → ∃ walk made,
      service.Reflects service.indexer.buildFiles (asked ++ [s.moment]) index walk made ∧
      made.time ≤ s.now ∧ s.now < made.time + service.lifetime ∧
      made.time < walk.time + service.lifetime ∧ s.now < walk.time + 2 * service.lifetime) ∧
    (∀ index s', service.identifierIndex s = .ok index s' → ∃ walk made,
      service.Reflects service.indexer.buildIdentifiers (asked ++ [s.moment]) index walk made ∧
      made.time ≤ s.now ∧ s.now < made.time + service.lifetime ∧
      made.time < walk.time + service.lifetime ∧ s.now < walk.time + 2 * service.lifetime) := by
  have hlifetime : 0 < service.lifetime := Nat.mul_pos hpos (by decide)
  have htraced := h.traced hlifetime
  constructor
  · intro index s' hask
    rw [fileIndex_eq_ask] at hask
    obtain ⟨_, hpast, hage, walk, hwalk, made, hmade, world, rfl, hle, hlt, hbuild⟩ :=
      htraced.made_of_ask hlifetime hask rfl htraced.files_lifetime htraced.files
    exact ⟨walk, made, ⟨hwalk, hmade, hle, world, hbuild⟩, hpast, hage, hlt, by omega⟩
  · intro index s' hask
    rw [identifierIndex_eq_ask] at hask
    obtain ⟨_, hpast, hage, walk, hwalk, made, hmade, world, rfl, hle, hlt, hbuild⟩ :=
      htraced.made_of_ask hlifetime hask rfl htraced.identifiers_lifetime htraced.identifiers
    exact ⟨walk, made, ⟨hwalk, hmade, hle, world, hbuild⟩, hpast, hage, hlt, by omega⟩

/-- **Ages add up.** The tree is walked when the index of identifiers is asked for. The index of
files is asked for before the corpus is too old, and again before it is too old itself: it is given,
and reflects the first walk. -/
theorem reaches_late {a b : Nat} (ha : a < service.lifetime) (hb : b < service.lifetime) (t : Nat)
    (early made late : World σ) (labels : ℓ) {first : IdentifierIndex} {index : FileIndex}
    {after₁ after₂ : World σ}
    (hfirst : service.indexer.buildIdentifiers (service.indexer.collect early.disk) early =
      .ok first after₁)
    (hindex : service.indexer.buildFiles (service.indexer.collect early.disk) made =
      .ok index after₂) :
    ∃ s, service.Reaches [⟨t, early⟩, ⟨t + a, made⟩] s ∧ s.moment = ⟨t + a + b, late⟩ ∧
      service.fileIndex s = .ok index s := by
  -- the tree is walked, for the index of identifiers
  obtain ⟨s₁, hreaches₁, hnow₁, hcorpus₁, hlife₁, hfiles₁, hlifetime₁⟩ :
      ∃ s, service.Reaches [⟨t, early⟩] s ∧ s.now = t ∧
        s.corpus.kept = some ⟨service.indexer.collect early.disk, t⟩ ∧
        s.corpus.lifetime = service.lifetime ∧ s.files.kept = none ∧
          s.files.lifetime = service.lifetime := by
    refine ⟨_, (Reaches.start early labels t).askIdentifiers, ?_⟩
    have hafter := after_identifierIndex (s := service.start early labels t)
      (Slot.fresh?_of_empty rfl) (takeCorpus_of_stale (Slot.fresh?_of_empty rfl)) hfirst
    rw [hafter]
    exact ⟨rfl, rfl, rfl, rfl, rfl⟩
  -- the corpus is fresh when the index of files is made
  obtain ⟨s₂, hreaches₂, hnow₂, hfiles₂, hlifetime₂⟩ :
      ∃ s, service.Reaches [⟨t, early⟩, ⟨t + a, made⟩] s ∧ s.now = t + a ∧
        s.files.kept = some ⟨index, t + a⟩ ∧ s.files.lifetime = service.lifetime := by
    obtain ⟨s, hs⟩ : ∃ s, s = { s₁ with world := made, now := s₁.now + a } := ⟨_, rfl⟩
    have hreaches : service.Reaches [⟨t, early⟩] s := hs ▸ (hreaches₁.change made).elapse a
    have hmoment : s.moment = ⟨t + a, made⟩ := by rw [hs, State.moment, hnow₁]
    have hfresh : s.corpus.fresh? s.now = some (service.indexer.collect early.disk) := by
      rw [Slot.fresh?_eq_some_iff, hs]
      exact ⟨t, hcorpus₁, by simp only [hnow₁, hlife₁]; omega⟩
    have hstale : s.files.fresh? s.now = none := Slot.fresh?_of_empty (by rw [hs]; exact hfiles₁)
    have hworld : s.world = made := by rw [hs]
    have hafter := after_fileIndex hstale (takeCorpus_of_fresh hfresh) (hworld.symm ▸ hindex)
    have hnow : s.now = t + a := congrArg Moment.time hmoment
    refine ⟨_, hmoment ▸ hreaches.askFiles, ?_⟩
    rw [hafter, ← hnow]
    exact ⟨rfl, rfl, by rw [hs]; exact hlifetime₁⟩
  -- and the index is fresh when it is asked for again
  refine ⟨_, (hreaches₂.change late).elapse b, ?_, ?_⟩
  · rw [State.moment, hnow₂]
  · rw [fileIndex_eq_ask]
    refine ask_of_fresh (Slot.fresh?_eq_some_iff.mpr ⟨t + a, hfiles₂, ?_⟩)
    have hage : s₂.now + b - (t + a) < s₂.files.lifetime := by omega
    exact hage

end Service

/-! ## A late answer -/

open CodeAtlas.Disk CodeAtlas.Ignore CodeAtlas.Path

/-- The index of files says how many files were looked at. -/
theorem Indexer.filesScanned_of_buildFiles {ix : Indexer σ} {c : Corpus} {w w' : World σ}
    {index : FileIndex} (h : ix.buildFiles c w = .ok index w') :
    index.stats.filesScanned = c.scanned := by
  rw [buildFiles_eq_map] at h
  obtain ⟨result, -, rfl⟩ := Work.exists_of_map_eq_ok h
  rfl

/-- Without a root nothing is looked at. -/
theorem scanned_cachesOnly (v : Embedding) :
    ((constantIndexer v).collect cachesOnly).scanned = 0 := by
  have hpath : "/repo" = join "/" "repo" := by decide
  have htop : cachesOnly.locate true "/" = .ok [] :=
    locate_iff_leads.mpr (.idle rfl (.inl rfl) (.idle rfl (.inl rfl) .arrive))
  have hnothing : cachesOnly.lookup ["repo"] = none := by
    simp [cachesOnly, lookup_put, lookup_empty]
  have hfound : cachesOnly.locate true "/repo" = .ok ["repo"] := by
    rw [hpath]
    refine locate_join true htop rfl isName_repo fun target htarget => ?_
    rw [List.nil_append, hnothing] at htarget
    cases htarget
  have hwalk (skips : Skips) : cachesOnly.walk skips (constantIndexer v).root {} = [] := by
    have hstart : walkStart (constantIndexer v).root {} = "/repo" := rfl
    have hcanonical : cachesOnly.canonical? "/repo" = .error .notFound := by
      rw [canonical?, hfound]
      simp only [hnothing]
      rfl
    rw [walk, hstart, hcanonical]
  rw [Indexer.collect, hwalk]
  rfl

/-- The notes are looked at. -/
theorem scanned_noteDisk (f : String → Embedding) (text : String) :
    ((givingIndexer f).collect (noteDisk text)).scanned ≠ 0 := by
  have hready := ready_noteDisk f text
  have hsame : (givingIndexer f).SameTree ["repo"] ["caches"] (noteDisk text) (noteDisk text) :=
    ⟨fun _ _ _ => Iff.rfl, rfl⟩
  have hfinds := finds_note hsame (.inl rfl) (file_iff_notes.mpr (.inl ⟨rfl, rfl⟩))
  have hmem := (mem_walk hready.rooted hready.unseen).mpr ⟨_, _, hfinds, rfl⟩
  have hlength := List.length_pos_of_mem hmem
  rw [Indexer.collect, Corpus.ofReadings]
  simpa using hlength.ne'

/-- A service whose snapshots are fresh for one second. -/
def briefService : Service Unit Unit where
  settings := { Settings.ofBase "/repo" with freshSeconds := 1 }
  indexer := constantIndexer #[1.0]
  labeler := none

namespace Service

/-- The disk without the note, at the time 0. -/
def beforeNote : Moment Unit := ⟨0, ⟨cachesOnly, ()⟩⟩

/-- The disk with the note, at some time. -/
def withNote (time : Nat) : Moment Unit := ⟨time, ⟨noteDisk "note", ()⟩⟩

/-- The note appears after the tree was walked. -/
theorem reaches_unnoted : ∃ s index, briefService.Reaches [beforeNote, withNote 999] s ∧
    s.moment = withNote 1997 ∧ briefService.fileIndex s = .ok index s ∧
    index.stats.filesScanned = 0 := by
  have hg := Provider.gives_giving (fun _ => #[1.0]) (constantIndexer #[1.0]).batching
  obtain ⟨first, m₁, hfirst, -⟩ := Indexer.buildIdentifiers_eq hg
    (briefService.indexer.collect cachesOnly) ⟨cachesOnly, ()⟩
  obtain ⟨index, m₂, hindex, -⟩ := Indexer.buildFiles_eq hg
    (briefService.indexer.collect cachesOnly) ⟨noteDisk "note", ()⟩
  have ha : 999 < briefService.lifetime := by decide
  have hb : 998 < briefService.lifetime := by decide
  obtain ⟨s, hreaches, hmoment, hask⟩ := reaches_late ha hb 0 ⟨cachesOnly, ()⟩ ⟨noteDisk "note", ()⟩
    ⟨noteDisk "note", ()⟩ () hfirst hindex
  refine ⟨s, index, hreaches, hmoment, hask, ?_⟩
  rw [Indexer.filesScanned_of_buildFiles hindex]
  exact scanned_cachesOnly _

/-- **An index can be older than its lifetime.** No walk within the last lifetime is the one that an
index reflects: the files that were looked at are those of an older tree. -/
theorem not_age_le_lifetime : ¬∀ (service : Service Unit Unit) (asked : List (Moment Unit))
    (s : State Unit Unit), service.Reaches asked s → 0 < service.settings.freshSeconds →
    ∀ index s', service.fileIndex s = .ok index s' → ∃ walk made,
      service.Reflects service.indexer.buildFiles (asked ++ [s.moment]) index walk made ∧
        s.now ≤ walk.time + service.lifetime := by
  intro hclaim
  obtain ⟨s, index, hreaches, hmoment, hask, hscanned⟩ := reaches_unnoted
  obtain ⟨walk, made, ⟨hwalk, -, -, world, hbuild⟩, hage⟩ :=
    hclaim briefService _ s hreaches (by decide) index s hask
  have hnow : s.now = 1997 := congrArg Moment.time hmoment
  have hlifetime : briefService.lifetime = 1000 := rfl
  have hnote : walk.world.disk = noteDisk "note" := by
    rw [hmoment] at hwalk
    rcases List.mem_cons.mp hwalk with rfl | hwalk
    · -- the first walk is too old
      rw [hnow, hlifetime] at hage
      exact absurd hage (by decide)
    · rcases List.mem_cons.mp hwalk with rfl | hwalk
      · rfl
      · rw [List.mem_singleton.mp hwalk]
        rfl
  rw [hnote] at hbuild
  rw [Indexer.filesScanned_of_buildFiles hbuild] at hscanned
  exact scanned_noteDisk _ _ hscanned

/-- The late answer is within the bound. -/
theorem Reaches.age_lt_late :
    ∃ s index walk made, briefService.Reaches [beforeNote, withNote 999] s ∧
    s.now = 1997 ∧ briefService.fileIndex s = .ok index s ∧
    briefService.Reflects briefService.indexer.buildFiles ([beforeNote, withNote 999] ++ [s.moment])
      index walk made ∧ 1997 < walk.time + 2 * 1000 := by
  obtain ⟨s, index, hreaches, hmoment, hask, -⟩ := reaches_unnoted
  have hnow : s.now = 1997 := congrArg Moment.time hmoment
  obtain ⟨walk, made, hreflects, -, -, -, hage⟩ := (hreaches.age_lt (by decide)).1 index s hask
  rw [hnow] at hage
  exact ⟨s, index, walk, made, hreaches, hnow, hask, hreflects, hage⟩

end Service

end CodeAtlas
