import CodeAtlas.Index.Tasks
import CodeAtlas.Proofs.Index.Alignment
import CodeAtlas.Proofs.Index.Refresh

/-!
# Whose vectors the caches hold

Setup: any number of tasks share the two caches. They come with any jobs, they get the lock in any
order, their providers fail at will, and others change the disk between any two actions, as long as
they leave each cache alone or remove it. `CacheTasks.Reaches` are the systems that come about in
this way, from a disk on which nothing is cached.

**`CacheTasks.origin_of_reaches`** says where each entry on the disk comes from. Some task filled
the cache with an item of this key, the text of the item has this hash, and the vector is the one
that came for the item in that call: the provider made it from the text, or from a start of the text
when the longer ones were refused (`ShrinkPolicy.Settles`). Vectors are written and read again, so
this is up to the decimals of their components; a vector whose components are read back
(`Embedding.Storable`) is the very one.

The point of the proof is what every action of a task keeps (`CacheTasks.Sound`): not only the
caches on the disk hold what some call gave, but also those that a task has in its hands. Nothing
has to be known about what happened between reading a cache and saving it.

A task alone does what the indexer does: **`CacheTasks.Job.leads_of_alone`**.
-/

namespace CodeAtlas.CacheTasks

open CodeAtlas.Fingerprint (contentHash)

variable {σ : Type}

/-! ## A task alone -/

/-- A stage as a piece of work. -/
def Stage.work (ix : Indexer σ) (stage : Stage) : Work σ EmbedError Unit := do
  let cache ← ix.loadCache stage.kind
  let filled ← ix.fillCache stage.items (stage.opened cache)
  ix.saveCache stage.kind (stage.closed filled.cache)

/-- A job as a piece of work. -/
def Job.work (ix : Indexer σ) (job : Job) : Work σ EmbedError Unit :=
  job.stages.forM (Stage.work ix)

/-- The stage of a build is its pass. -/
theorem Stage.work_pass (ix : Indexer σ) (kind : CacheKind) (items : List Item)
    (wanted : String → Bool) :
    (Stage.pass kind items wanted).work ix = (fun _ => ()) <$> ix.pass kind items wanted := by
  simp [Stage.work, Indexer.pass, Stage.kind, Stage.items, Stage.opened, Stage.closed]

/-- A stage of a refresh is the refresh of one cache. -/
theorem Stage.work_renew (ix : Indexer σ) (kind : CacheKind) (removed : List String)
    (items : List Item) :
    (Stage.renew kind removed items).work ix =
      (fun _ => ()) <$> ix.refreshCache kind removed items := by
  simp [Stage.work, Indexer.refreshCache, Stage.kind, Stage.items, Stage.opened, Stage.closed]

/-- Building files. -/
theorem Job.work_files (ix : Indexer σ) (c : Corpus) :
    (Job.files c).work ix = (fun _ => ()) <$> ix.buildFiles c := by
  simp [Job.work, Job.stages, Stage.work_pass, Indexer.buildFiles_eq_map]

/-- Building identifiers. -/
theorem Job.work_identifiers (ix : Indexer σ) (c : Corpus) :
    (Job.identifiers c).work ix = (fun _ => ()) <$> ix.buildIdentifiers c := by
  simp [Job.work, Job.stages, Stage.work_pass, Indexer.buildIdentifiers_eq_map]

/-- Making the vectors of call sites. -/
theorem Job.work_uses (ix : Indexer σ) (sites : List (String × Nat × String)) :
    (Job.uses sites).work ix = (fun _ => ()) <$> ix.embedUses sites := by
  simp [Job.work, Job.stages, Stage.work_pass, Indexer.embedUses]
  rfl

/-- Refreshing files that are read right before. -/
theorem Job.work_refresh (ix : Indexer σ) (names : List String) (w : World σ) :
    (Job.refresh (names.map fun name => (name, ix.readNamed w.disk name))).work ix w =
      ((fun _ => ()) <$> ix.refresh names) w := by
  have hwork : ∀ changes : Changes, [Stage.renew .files changes.removed changes.files,
      .renew .identifiers changes.removed changes.identifiers].forM (Stage.work ix) =
        (fun _ => ()) <$> (ix.refreshCache .files changes.removed changes.files >>= fun files =>
          ix.refreshCache .identifiers changes.removed changes.identifiers >>= fun identifiers =>
            pure (⟨changes.files.length, files.1 + identifiers.1, files.2 + identifiers.2⟩ :
              RefreshOutcome)) := by
    intro changes
    simp [Stage.work_renew]
  have hrefresh := ix.refresh_apply names w
  simp only [Functor.map, EStateM.map, hrefresh]
  rw [Job.work, Job.stages, hwork]
  rfl

/-- A task comes from one phase to another by actions of its own, while nothing else happens. -/
inductive Phase.Leads (ix : Indexer σ) (job : Job) (task : Nat) :
    Phase × Shared σ → Phase × Shared σ → Prop where
  /-- nothing is done -/
  | here (p : Phase × Shared σ) : Leads ix job task p p
  /-- an action is done, and then others -/
  | step {p q r : Phase × Shared σ} (first : p.1.step ix job task p.2 = some q)
      (rest : Leads ix job task q r) : Leads ix job task p r

/-- A task that ended as its work did. -/
def Phase.after (calls : List (Call σ)) : EStateM.Result EmbedError (World σ) Unit →
    Phase × Shared σ
  | .ok _ w => (.ended none, ⟨w, none, calls⟩)
  | .error e w => (.ended (some e), ⟨w, none, calls⟩)

/-- The stages that are left are worked off one after the other, so the induction is over them. -/
theorem Phase.leads_of_left (ix : Indexer σ) (job : Job) (task : Nat) (left : List Stage)
    (s : Shared σ) :
    ∃ calls, Leads ix job task (.working left, s)
      (after calls (left.forM (Stage.work ix) s.world)) := by
  induction left generalizing s with
  | nil => exact ⟨s.calls, .step rfl (.here _)⟩
  | cons stage left ih =>
    let cache := stage.opened (ix.store.load stage.kind s.world.disk)
    let calls := s.calls ++ [⟨job, stage, cache, s.world.memory⟩]
    rcases hfill : cache.fill ix.batching ix.provider stage.items s.world.memory with
      ⟨e | filled, memory⟩
    · have hfails : Phase.step ix job task s (.filling stage left cache) =
          some (.ended (some e), ⟨{ s.world with memory := memory }, none, calls⟩) := by
        simp only [Phase.step, hfill, calls]
      have hwork : (stage :: left).forM (Stage.work ix) s.world =
          .error e { s.world with memory := memory } := by
        simp [Stage.work, bind, EStateM.bind, Indexer.loadCache, Indexer.fillCache, cache, hfill]
      rw [hwork]
      exact ⟨calls, .step rfl (.step hfails (.here _))⟩
    · have hfills : Phase.step ix job task s (.filling stage left cache) =
          some (.saving stage left (stage.closed filled.cache),
            ⟨{ s.world with memory := memory }, s.owner, calls⟩) := by
        simp only [Phase.step, hfill, calls]
      have hwork : (stage :: left).forM (Stage.work ix) s.world = left.forM (Stage.work ix)
          ⟨ix.savedCache stage.kind (stage.closed filled.cache) s.world.disk, memory⟩ := by
        simp [Stage.work, bind, EStateM.bind, Indexer.loadCache, Indexer.fillCache, cache, hfill,
          Indexer.saveCache]
      rw [hwork]
      obtain ⟨calls', hleads⟩ := ih
        ⟨⟨ix.savedCache stage.kind (stage.closed filled.cache) s.world.disk,
        memory⟩, s.owner, calls⟩
      exact ⟨calls', .step rfl (.step hfills (.step rfl hleads))⟩

/-- **A task that is alone does what the indexer does**, and gives the lock back. -/
theorem Job.leads_of_alone (ix : Indexer σ) (job : Job) (task : Nat) {s : Shared σ}
    (h : s.owner = none) :
    ∃ calls, Phase.Leads ix job task (.waiting, s) (Phase.after calls (job.work ix s.world)) := by
  obtain ⟨calls, hleads⟩ := Phase.leads_of_left ix job task job.stages { s with owner := some task }
  exact ⟨calls, .step (by simp [Phase.step, h]) hleads⟩

/-! ## Where entries come from -/

/-- The call gave the vector `v` for the item `i`, at the place where the text of the item was sent.
-/
def Call.Gave (ix : Indexer σ) (call : Call σ) (i : Item) (v : Embedding) : Prop :=
  let asked := call.cache.missing call.stage.items
  ∃ answers memory, ix.batching.embedLenient ix.provider (asked.map Item.text) call.memory =
    (.ok answers, memory) ∧ (i, some v) ∈ asked.zip answers

/-- The entry under a key was made of what the call gave for an item of this key. -/
def Call.Made (ix : Indexer σ) (call : Call σ) (key : String) (entry : CacheEntry) : Prop :=
  ∃ i v, call.Gave ix i v ∧ i.key = key ∧ i.hash = entry.hash ∧ v.Rereads entry.vector

/-- Each entry of a cache was made in one of these calls, when the cache of this kind was filled. -/
def Coherent (ix : Indexer σ) (calls : List (Call σ)) (kind : CacheKind) (m : Cache) : Prop :=
  ∀ key entry, m[key]? = some entry →
    ∃ call ∈ calls, call.stage.kind = kind ∧ call.Made ix key entry

namespace Coherent

variable {ix : Indexer σ} {calls : List (Call σ)} {kind : CacheKind} {m : Cache}

/-- There is nothing to explain in the empty cache. -/
theorem of_isEmpty (h : m.isEmpty = true) : Coherent ix calls kind m := by
  intro key entry hentry
  rw [Std.TreeMap.getElem?_of_isEmpty h] at hentry
  cases hentry

/-- More calls explain more. -/
theorem mono {calls' : List (Call σ)} (h : Coherent ix calls kind m) (hsub : calls ⊆ calls') :
    Coherent ix calls' kind m := by
  intro key entry hentry
  obtain ⟨call, hcall, hmade⟩ := h key entry hentry
  exact ⟨call, hsub hcall, hmade⟩

/-- Dropping keys keeps a cache coherent. -/
theorem prune (h : Coherent ix calls kind m) (wanted : String → Bool) :
    Coherent ix calls kind (m.prune wanted).2 := by
  intro key entry hentry
  rw [Cache.getElem?_prune] at hentry
  split_ifs at hentry
  exact h key entry hentry

/-- What a stage begins with is coherent when what it read is. -/
theorem opened {stage : Stage} (h : Coherent ix calls kind m) :
    Coherent ix calls kind (stage.opened m) := by
  cases stage with
  | pass => exact h
  | renew => exact h.prune _

/-- What a stage saves is coherent when what it filled is. -/
theorem closed {stage : Stage} (h : Coherent ix calls kind m) :
    Coherent ix calls kind (stage.closed m) := by
  cases stage with
  | pass => exact h.prune _
  | renew => exact h

/-- **Filling a cache keeps it coherent**: what is new was made in this very call. -/
theorem fill {job : Job} {stage : Stage} {memory memory' : σ} {filled : Filled}
    (h : Coherent ix calls stage.kind m)
    (hfill : m.fill ix.batching ix.provider stage.items memory = (.ok filled, memory')) :
    Coherent ix (calls ++ [⟨job, stage, m, memory⟩]) stage.kind filled.cache := by
  obtain ⟨answers, hanswers, rfl⟩ := Cache.fill_eq_ok_iff.mp hfill
  intro key entry hentry
  rcases Cache.getElem?_learnAll_eq_some hentry with hold | ⟨i, hi, hkey, hhash⟩
  · exact h.mono (List.subset_append_left _ _) key entry hold
  · exact ⟨_, List.mem_concat_self, rfl, i, entry.vector, ⟨answers, memory', hanswers, hi⟩, hkey,
      hhash, .refl⟩

/-- **Writing and reading a cache keeps it coherent**, whatever its vectors are: if the text cannot
be read, there is nothing in the cache. -/
theorem reread (h : Coherent ix calls kind m) :
    Coherent ix calls kind ((Cache.ofText? m.text).getD ∅) := by
  cases hread : Cache.ofText? m.text with
  | none => exact .of_isEmpty rfl
  | some m' =>
    intro key entry hentry
    obtain ⟨old, hold, hhash, hvector⟩ := Cache.getElem?_of_ofText?_text hread hentry
    obtain ⟨call, hcall, hkind, i, v, hgave, hkey, hitem, hrereads⟩ := h key old hold
    exact ⟨call, hcall, hkind, i, v, hgave, hkey, hitem.trans hhash, hrereads.tail hvector⟩

end Coherent

/-! ## What an action keeps -/

/-- A task has in its hands stages of its job, and a cache that is coherent. -/
def Phase.Sound (ix : Indexer σ) (calls : List (Call σ)) (job : Job) : Phase → Prop
  | waiting => True
  | working left => left ⊆ job.stages
  | filling stage left cache => stage :: left ⊆ job.stages ∧ Coherent ix calls stage.kind cache
  | saving stage left cache => stage :: left ⊆ job.stages ∧ Coherent ix calls stage.kind cache
  | ended _ => True

/-- More calls explain more of what a task has in its hands. -/
theorem Phase.Sound.mono {ix : Indexer σ} {calls calls' : List (Call σ)} {job : Job} {p : Phase}
    (h : p.Sound ix calls job) (hsub : calls ⊆ calls') : p.Sound ix calls' job := by
  cases p with
  | waiting => trivial
  | working left => exact h
  | filling stage left cache => exact ⟨h.1, h.2.mono hsub⟩
  | saving stage left cache => exact ⟨h.1, h.2.mono hsub⟩
  | ended failure => trivial

/-- What the tasks share is as it should be: the caches are kept at `home` and are coherent, and all
calls belong to stages of their jobs. -/
structure Shared.Sound (ix : Indexer σ) (home : Place) (s : Shared σ) : Prop where
  /-- the caches are settled once their directory is made -/
  opens : ∃ d, ix.store.Opens s.world.disk d home
  /-- each cache is coherent -/
  coherent : ∀ kind, Coherent ix s.calls kind (ix.store.load kind s.world.disk)
  /-- no call was made for anything but a stage of a job -/
  proper : ∀ call ∈ s.calls, call.stage ∈ call.job.stages

section Step

variable {ix : Indexer σ} {home : Place} {s : Shared σ}

/-- Saving a coherent cache. -/
theorem Shared.Sound.savedCache (h : s.Sound ix home) {kind : CacheKind} {m : Cache}
    (hm : Coherent ix s.calls kind m) :
    Shared.Sound ix home
      { s with world := { s.world with disk := ix.savedCache kind m s.world.disk } } := by
  obtain ⟨d, hopens⟩ := h.opens
  obtain ⟨d', hsave, hwritten⟩ := hopens.write kind m
  have hdisk : ix.savedCache kind m s.world.disk = d' := by rw [Indexer.savedCache, hsave]
  rw [hdisk]
  refine ⟨⟨d', hwritten.settled.opens⟩, fun kind' => ?_, h.proper⟩
  by_cases hkind : kind' = kind
  · rw [hkind, hwritten.loaded]
    exact hm.reread
  · rw [hwritten.other kind' hkind, hopens.loads]
    exact h.coherent kind'

/-- A call was made, whatever came of it. -/
theorem Shared.Sound.call (h : s.Sound ix home) {call : Call σ}
    (hcall : call.stage ∈ call.job.stages) (memory : σ) (owner : Option Nat) :
    Shared.Sound ix home ⟨{ s.world with memory := memory }, owner, s.calls ++ [call]⟩ where
  opens := h.opens
  coherent kind := (h.coherent kind).mono (List.subset_append_left _ _)
  proper := List.forall_mem_append.mpr ⟨h.proper, List.forall_mem_singleton.mpr hcall⟩

/-- **What an action of a task keeps.** No call is forgotten, the caches stay coherent, and so does
what the task has in its hands. There is a case for each phase. -/
theorem Phase.sound_of_step {job : Job} {task : Nat} {p p' : Phase} {s' : Shared σ}
    (hstep : p.step ix job task s = some (p', s')) (h : s.Sound ix home)
    (hp : p.Sound ix s.calls job) :
    s.calls ⊆ s'.calls ∧ s'.Sound ix home ∧ p'.Sound ix s'.calls job := by
  cases p with
  | waiting =>
    rw [step] at hstep
    split_ifs at hstep
    cases hstep
    exact ⟨fun _ => id, ⟨h.opens, h.coherent, h.proper⟩, fun _ => id⟩
  | working left =>
    cases left with
    | nil =>
      cases hstep
      exact ⟨fun _ => id, ⟨h.opens, h.coherent, h.proper⟩, trivial⟩
    | cons stage left =>
      cases hstep
      exact ⟨fun _ => id, h, hp, (h.coherent stage.kind).opened⟩
  | filling stage left cache =>
    obtain ⟨hstages, hcache⟩ := hp
    have hstage : stage ∈ job.stages := hstages List.mem_cons_self
    rw [step] at hstep
    dsimp only at hstep
    split at hstep
    · next filled memory hfill =>
      cases hstep
      exact ⟨List.subset_append_left _ _, h.call hstage _ _, hstages, (hcache.fill hfill).closed⟩
    · next e memory hfill =>
      cases hstep
      exact ⟨List.subset_append_left _ _, h.call hstage _ _, trivial⟩
  | saving stage left cache =>
    obtain ⟨hstages, hcache⟩ := hp
    cases hstep
    exact ⟨fun _ => id, h.savedCache hcache, fun _ hmem => hstages (List.mem_cons_of_mem _ hmem)⟩
  | ended failure => cases hstep

end Step

/-! ## Systems -/

/-- The systems that come about when nothing is cached at first. Tasks come and act in any order.
Others change the world between two actions, but leave each cache as it is or remove it. -/
inductive Reaches (ix : Indexer σ) (home : Place) : System σ → Prop where
  /-- nothing has happened and nothing is cached -/
  | start {w : World σ} {d : Disk} (opens : ix.store.Opens w.disk d home)
      (empty : ∀ kind, (ix.store.load kind w.disk).isEmpty = true) : Reaches ix home (.start w)
  /-- a task comes -/
  | come {s s' : System σ} {job : Job} (before : Reaches ix home s)
      (moved : s.move? ix (.come job) = some s') : Reaches ix home s'
  /-- a task does its next action -/
  | step {s s' : System σ} {task : Nat} (before : Reaches ix home s)
      (moved : s.move? ix (.step task) = some s') : Reaches ix home s'
  /-- others change the world -/
  | edit {s s' : System σ} {w : World σ} {d : Disk} (before : Reaches ix home s)
      (opens : ix.store.Opens w.disk d home)
      (kept : ∀ kind, ix.store.load kind w.disk = ix.store.load kind s.shared.world.disk ∨
        (ix.store.load kind w.disk).isEmpty = true)
      (moved : s.move? ix (.edit w) = some s') : Reaches ix home s'

section Reaches

variable {ix : Indexer σ} {home : Place} {s : System σ}

/-- The caches are coherent, and so is what each task has in its hands. -/
structure System.Sound (ix : Indexer σ) (home : Place) (s : System σ) : Prop where
  /-- what the tasks share -/
  shared : s.shared.Sound ix home
  /-- what each task has in its hands -/
  tasks : ∀ task ∈ s.tasks, task.2.Sound ix s.shared.calls task.1

/-- An action of one task keeps the system sound. -/
theorem System.Sound.step {s' : System σ} {task : Nat} (h : s.Sound ix home)
    (hmove : s.move? ix (.step task) = some s') : s'.Sound ix home := by
  simp only [System.move?, Option.bind_eq_bind, Option.bind_eq_some_iff, Prod.exists,
    Option.some.injEq] at hmove
  obtain ⟨job, p, htask, p', shared, hstep, rfl⟩ := hmove
  obtain ⟨hcalls, hshared, hp⟩ :=
    Phase.sound_of_step hstep h.shared (h.tasks _ (List.mem_of_getElem? htask))
  refine ⟨hshared, fun other hother => ?_⟩
  rcases List.mem_or_eq_of_mem_set hother with hold | rfl
  · exact (h.tasks other hold).mono hcalls
  · exact hp

/-- **Whatever happens, the system is sound.** -/
theorem Reaches.sound (h : Reaches ix home s) : s.Sound ix home := by
  induction h with
  | start opens empty =>
    exact ⟨⟨⟨_, opens⟩, fun kind => .of_isEmpty (empty kind), nofun⟩, nofun⟩
  | come _ moved ih =>
    cases moved
    exact ⟨ih.shared, List.forall_mem_append.mpr ⟨ih.tasks, List.forall_mem_singleton.mpr trivial⟩⟩
  | step _ moved ih => exact ih.step moved
  | edit _ opens kept moved ih =>
    cases moved
    refine ⟨⟨⟨_, opens⟩, fun kind => ?_, ih.shared.proper⟩, ih.tasks⟩
    rcases kept kind with hsame | hgone
    · rw [hsame]
      exact ih.shared.coherent kind
    · exact .of_isEmpty hgone

/-- What a task does alone can happen in a system. -/
theorem Reaches.leads (h : Reaches ix home s) {task : Nat} {job : Job} {p q : Phase × Shared σ}
    (hleads : Phase.Leads ix job task p q) (htask : s.tasks[task]? = some (job, p.1))
    (hshared : s.shared = p.2) : Reaches ix home ⟨q.2, s.tasks.set task (job, q.1)⟩ := by
  induction hleads generalizing s with
  | here p =>
    obtain ⟨hlt, hget⟩ := List.getElem?_eq_some_iff.mp htask
    rw [← hget, List.set_getElem_self, ← hshared]
    exact h
  | @step p q r first _ ih =>
    have hlt : task < s.tasks.length := (List.getElem?_eq_some_iff.mp htask).1
    have hmove : s.move? ix (.step task) = some ⟨q.2, s.tasks.set task (job, q.1)⟩ := by
      simp [System.move?, htask, hshared, first]
    have hrest := ih (h.step hmove) (List.getElem?_set_self hlt) rfl
    rwa [List.set_set] at hrest

/-! ## One task at a time -/

/-- Whether a task has the lock in this phase. -/
def Phase.holds : Phase → Bool
  | waiting => false
  | working _ => true
  | filling _ _ _ => true
  | saving _ _ _ => true
  | ended _ => false

/-- Whether the task with a number is at work. -/
def System.Works (s : System σ) (i : Nat) : Prop :=
  ∃ task, s.tasks[i]? = some task ∧ task.2.holds = true

/-- The tasks that are at work are those that have the lock. -/
def System.Locked (s : System σ) : Prop :=
  ∀ i, s.shared.owner = some i ↔ s.Works i

/-- An action takes the lock when it is free, gives it back, or leaves it alone. -/
theorem Phase.lock_cases {job : Job} {task : Nat} {s s' : Shared σ} {p p' : Phase}
    (hstep : p.step ix job task s = some (p', s')) :
    (s.owner = none ∧ s'.owner = some task ∧ p'.holds = true) ∨
    (p.holds = true ∧ s'.owner = none ∧ p'.holds = false) ∨
    (p.holds = true ∧ s'.owner = s.owner ∧ p'.holds = true) := by
  cases p with
  | waiting =>
    rw [step] at hstep
    split_ifs at hstep with hfree
    cases hstep
    exact .inl ⟨Option.isNone_iff_eq_none.mp hfree, rfl, rfl⟩
  | working left =>
    cases left with
    | nil =>
      cases hstep
      exact .inr (.inl ⟨rfl, rfl, rfl⟩)
    | cons stage left =>
      cases hstep
      exact .inr (.inr ⟨rfl, rfl, rfl⟩)
  | filling stage left cache =>
    rw [step] at hstep
    dsimp only at hstep
    split at hstep
    · cases hstep
      exact .inr (.inr ⟨rfl, rfl, rfl⟩)
    · cases hstep
      exact .inr (.inl ⟨rfl, rfl, rfl⟩)
  | saving stage left cache =>
    cases hstep
    exact .inr (.inr ⟨rfl, rfl, rfl⟩)
  | ended failure => cases hstep

/-- An action of one task keeps the lock with those who work. -/
theorem System.Locked.step {s' : System σ} {task : Nat} (h : s.Locked)
    (hmove : s.move? ix (.step task) = some s') : s'.Locked := by
  simp only [System.move?, Option.bind_eq_bind, Option.bind_eq_some_iff, Prod.exists,
    Option.some.injEq] at hmove
  obtain ⟨job, p, htask, p', shared, hstep, rfl⟩ := hmove
  have hlt : task < s.tasks.length := (List.getElem?_eq_some_iff.mp htask).1
  have hbefore : s.shared.owner = some task ↔ p.holds = true := by
    rw [h task, Works, htask]
    simp
  have hself : Works ⟨shared, s.tasks.set task (job, p')⟩ task ↔ p'.holds = true := by
    rw [Works, List.getElem?_set_self hlt]
    simp
  intro i
  by_cases hi : i = task
  · subst hi
    rw [hself]
    rcases Phase.lock_cases hstep with ⟨-, howner, hp'⟩ | ⟨-, howner, hp'⟩ | ⟨hp, howner, hp'⟩
    · simp [howner, hp']
    · simp [howner, hp']
    · simp [howner, hbefore, hp, hp']
  · -- nobody else takes the lock or loses it
    rw [Works, List.getElem?_set_ne (Ne.symm hi), ← Works, ← h i]
    rcases Phase.lock_cases hstep with ⟨hfree, howner, -⟩ | ⟨hp, howner, -⟩ | ⟨-, howner, -⟩
    · simp [howner, hfree, Ne.symm hi]
    · simp [howner, hbefore.mpr hp, Ne.symm hi]
    · rw [howner]

/-- **Only the task that has the lock is at work**, and the lock is never lost, even when a provider
fails. -/
theorem Reaches.locked (h : Reaches ix home s) : s.Locked := by
  induction h with
  | start => simp [System.Locked, System.Works, System.start]
  | come _ moved ih =>
    cases moved
    intro i
    rw [ih i, System.Works, System.Works, List.getElem?_append]
    split_ifs with hlt
    · rfl
    · simp [List.getElem?_eq_none (Nat.le_of_not_lt hlt), List.getElem?_singleton, Phase.holds]
  | step _ moved ih => exact ih.step moved
  | edit _ _ _ moved ih =>
    cases moved
    exact ih

/-! ## The caches on the disk -/

namespace Job

/-- The documents whose vectors a job may make. -/
def documents : Job → List Document
  | files c => c.documents
  | identifiers _ => []
  | uses _ => []
  | refresh readings => readings.filterMap fun reading => reading.2.document?

/-- The identifiers whose vectors a job may make. -/
def symbols : Job → List Identifier
  | files _ => []
  | identifiers c => c.identifiers
  | uses _ => []
  | refresh readings => readings.flatMap fun reading => reading.2.identifiers

/-- The call sites whose vectors a job may make. -/
def sites : Job → List (String × Nat × String)
  | uses sites => sites
  | _ => []

/-- What an item of a job stands for: a document in the cache of files, and an identifier or a call
site in the other cache. -/
def Wants (job : Job) (i : Item) : CacheKind → Prop
  | .files => ∃ d ∈ job.documents, i = d.item
  | .identifiers => (∃ x ∈ job.symbols, i = x.item) ∨ ∃ use ∈ job.sites, i = useItem use

/-- **Every item of a stage stands for something** of the kind that the cache is for. There is a
case for each job. -/
theorem wants_of_mem {job : Job} {stage : Stage} (hstage : stage ∈ job.stages) {i : Item}
    (hi : i ∈ stage.items) : job.Wants i stage.kind := by
  cases job with
  | files c =>
    obtain rfl := List.mem_singleton.mp hstage
    obtain ⟨d, hd, rfl⟩ := List.mem_map.mp hi
    exact ⟨d, hd, rfl⟩
  | identifiers c =>
    obtain rfl := List.mem_singleton.mp hstage
    obtain ⟨x, hx, rfl⟩ := List.mem_map.mp hi
    exact .inl ⟨x, hx, rfl⟩
  | uses sites =>
    obtain rfl := List.mem_singleton.mp hstage
    obtain ⟨use, huse, rfl⟩ := List.mem_map.mp hi
    exact .inr ⟨use, huse, rfl⟩
  | refresh readings =>
    rcases List.mem_pair.mp hstage with rfl | rfl
    · obtain ⟨reading, hreading, hitem⟩ := List.mem_filterMap.mp hi
      obtain ⟨d, hd, rfl⟩ := Option.map_eq_some_iff.mp hitem
      exact ⟨d, List.mem_filterMap.mpr ⟨reading, hreading, hd⟩, rfl⟩
    · obtain ⟨reading, hreading, hitem⟩ := List.mem_flatMap.mp hi
      obtain ⟨x, hx, rfl⟩ := List.mem_map.mp hitem
      exact .inl ⟨x, List.mem_flatMap.mpr ⟨reading, hreading, hx⟩, rfl⟩

end Job

/-- Where the entry under a key of a cache comes from: a call, an item of it, and the vector that
came for the item. -/
structure Origin (ix : Indexer σ) (kind : CacheKind) (key : String) (entry : CacheEntry)
    (call : Call σ) (i : Item) (v : Embedding) : Prop where
  /-- the call was made for a stage of a job -/
  stage_mem : call.stage ∈ call.job.stages
  /-- the stage used this cache -/
  kind_eq : call.stage.kind = kind
  /-- the item is one that the stage had to fill in -/
  item_mem : i ∈ call.stage.items
  /-- it stands for a document, an identifier or a call site of the job, as the cache demands -/
  wanted : call.job.Wants i kind
  /-- it has this key -/
  key_eq : i.key = key
  /-- its text has this hash -/
  hash_eq : contentHash i.text = entry.hash
  /-- the vector came for it -/
  gave : call.Gave ix i v
  /-- it was made from the text, or from a start of the text when the longer ones were refused -/
  settles : ix.batching.policy.Settles ix.provider i.text (some v)
  /-- the entry has this vector, as it is after being written and read -/
  rereads : v.Rereads entry.vector
  /-- which is the very vector if its components are read back -/
  exact_of_storable : v.Storable → entry.vector = v

/-- The vector that a call gave for an item settles the item's text. -/
theorem Call.Gave.settles {call : Call σ} {i : Item} {v : Embedding} (h : call.Gave ix i v) :
    i ∈ call.stage.items ∧ ix.batching.policy.Settles ix.provider i.text (some v) := by
  obtain ⟨answers, memory, hanswers, hmem⟩ := h
  refine ⟨List.mem_of_mem_filter (List.of_mem_zip hmem).1, ?_⟩
  have hall := Batching.settles_of_embedLenient hanswers
  rw [List.forall₂_map_left_iff, List.forall₂_iff_zip] at hall
  exact hall.2 hmem

/-- **Where the entries of the caches come from**, whatever happened, and what their keys are. -/
theorem origin_of_reaches (h : Reaches ix home s) {kind : CacheKind} {key : String}
    {entry : CacheEntry} (hentry : (ix.store.load kind s.shared.world.disk)[key]? = some entry) :
    ∃ call ∈ s.shared.calls, ∃ i v, Origin ix kind key entry call i v ∧
      (kind = .files → ∃ d ∈ call.job.documents, key = d.path) ∧
      (kind = .identifiers → (∃ x ∈ call.job.symbols, key = CacheKey.identifier x.id) ∨
        ∃ use ∈ call.job.sites, key = CacheKey.callSite use.1 use.2.1) := by
  have hsound := h.sound.shared
  obtain ⟨call, hcall, rfl, i, v, hgave, rfl, hhash, hrereads⟩ :=
    hsound.coherent kind key entry hentry
  obtain ⟨hitem, hsettles⟩ := hgave.settles
  have hstage := hsound.proper call hcall
  have hwanted := Job.wants_of_mem hstage hitem
  refine ⟨call, hcall, i, v, ⟨hstage, rfl, hitem, hwanted, rfl, hhash, hgave, hsettles, hrereads,
    hrereads.eq_of_storable⟩, fun hkind => ?_, fun hkind => ?_⟩
  · rw [hkind] at hwanted
    obtain ⟨d, hd, rfl⟩ := hwanted
    exact ⟨d, hd, rfl⟩
  · rw [hkind] at hwanted
    rcases hwanted with ⟨x, hx, rfl⟩ | ⟨use, huse, rfl⟩
    · exact .inl ⟨x, hx, rfl⟩
    · exact .inr ⟨use, huse, rfl⟩

end Reaches

/-! ## Two tasks

The first task builds an index of one note, and the second one of two notes, with a provider that
gives the notes different vectors. Both have come before either works. -/

/-- A corpus of some notes. -/
def corpusOf (documents : List Document) : Corpus :=
  ⟨documents, [], ∅, documents.length, 0⟩

/-- The note that both tasks index, and the one that only the second task does. -/
def bothNotes : List Document :=
  [noteOf "notes.md" "one", noteOf "plain.md" "plain"]

/-- What the tasks have to do. -/
def noteTasks : List (Job × Phase) :=
  [(.files (corpusOf (bothNotes.take 1)), .waiting), (.files (corpusOf bothNotes), .waiting)]

/-- The vectors of the notes. -/
def noteVectors : String → Embedding :=
  noteVector #[2.0]

/-- A task that builds an index of some of the notes, alone, leaves caches that have them. -/
theorem exists_after_files (task : Nat) {d : Disk} (calls : List (Call Unit))
    {documents : List Document} (hsub : documents ⊆ bothNotes)
    (hkeyed : Cache.Keyed (corpusOf documents).fileItems)
    (h : (givingIndexer noteVectors).Current ["repo"] ["caches"] (· ∈ noteTexts) noteVectors d) :
    ∃ calls' d', Phase.Leads (givingIndexer noteVectors) (.files (corpusOf documents)) task
        (.waiting, ⟨⟨d, ()⟩, none, calls⟩) (.ended none, ⟨⟨d', ()⟩, none, calls'⟩) ∧
      (givingIndexer noteVectors).Current ["repo"] ["caches"] (· ∈ noteTexts) noteVectors d' ∧
      ∀ document ∈ documents,
        ((givingIndexer noteVectors).store.load .files d').Has noteVectors document.item := by
  have hix : (givingIndexer noteVectors).Steady (· ∈ noteTexts) noteVectors :=
    steady_notes Embedding.storable_two.legible
  have htexts : ∀ i ∈ (corpusOf documents).fileItems, i.text ∈ noteTexts := by
    intro i hi
    obtain ⟨document, hdocument, rfl⟩ := List.mem_map.mp hi
    rcases List.mem_pair.mp (hsub hdocument) with rfl | rfl
    · exact one_mem_noteTexts
    · exact plain_mem_noteTexts
  obtain ⟨index, w', saved, hbuild, hbuilds, -⟩ :=
    h.buildFiles (w := ⟨d, ()⟩) hix htexts hkeyed
  have hwork : (Job.files (corpusOf documents)).work (givingIndexer noteVectors) ⟨d, ()⟩ =
      .ok () w' := by
    rw [Job.work_files]
    simp only [Functor.map, EStateM.map, hbuild]
  obtain ⟨calls', hleads⟩ := Job.leads_of_alone (givingIndexer noteVectors)
    (.files (corpusOf documents)) task (s := ⟨⟨d, ()⟩, none, calls⟩) rfl
  rw [hwork] at hleads
  refine ⟨calls', w'.disk, hleads, hbuilds.advances.current, fun document hdocument => ?_⟩
  rw [hbuilds.advances.reloads.has_iff]
  exact ⟨hbuilds.honest.finite fun text v hv => hv.2 ▸ finite_noteVector text,
    hbuilds.has _ (List.mem_map_of_mem hdocument)⟩

/-- Two tasks build an index, one after the other. The entry of each note comes from a call for it.
-/
theorem origin_of_reaches_notes : ∃ s : System Unit, s.tasks.length = 2 ∧
    Reaches (givingIndexer noteVectors) ["caches"] s ∧
    ∀ document ∈ bothNotes, ∃ entry,
      ((givingIndexer noteVectors).store.load .files s.shared.world.disk)[document.path]? =
        some entry ∧ entry.vector = noteVectors document.item.text ∧
      ∃ call ∈ s.shared.calls, ∃ i v,
        Origin (givingIndexer noteVectors) .files document.path entry call i v := by
  have hstart : Reaches (givingIndexer noteVectors) ["caches"] (.start ⟨noteDisk "one", ()⟩) :=
    .start (settled_noteDisk _ _).opens (isEmpty_load_noteDisk _ _)
  have hcome : Reaches (givingIndexer noteVectors) ["caches"]
      ⟨⟨⟨noteDisk "one", ()⟩, none, []⟩, noteTasks⟩ := (hstart.come rfl).come rfl
  obtain ⟨calls, d, hfirst, hcurrent, -⟩ := exists_after_files 0 []
    (List.take_subset 1 bothNotes) (Cache.keyed_of_nodup (by decide)) (current_noteDisk _ _ "one")
  obtain ⟨calls', d', hsecond, -, hhas⟩ := exists_after_files 1 calls
    (List.Subset.refl bothNotes) (Cache.keyed_of_nodup (by decide)) hcurrent
  have hreaches := (hcome.leads hfirst rfl rfl).leads hsecond rfl rfl
  refine ⟨_, rfl, hreaches, fun document hdocument => ?_⟩
  have hentry := Cache.vector?_eq_some.mp (hhas document hdocument)
  obtain ⟨call, hcall, i, v, horigin, -⟩ := origin_of_reaches hreaches hentry
  exact ⟨_, hentry, rfl, call, hcall, i, v, horigin⟩

end CodeAtlas.CacheTasks
