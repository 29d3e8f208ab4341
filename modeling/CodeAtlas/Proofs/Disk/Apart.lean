import CodeAtlas.Proofs.Disk.Ways

/-!
# Runs on disks that differ off the way

Setup: two disks have the same links, and agree but for what stands in some region
(`Disk.AgreeOff`). A run whose paths do not come past the region ends alike on both (`Disk.Alike`):
with the same answer, on disks that agree off the region again. **`Disk.alike_makeDirectories`** and
**`Disk.alike_copy`** say so of the changes that a program makes, and **`Disk.Alike.bind`** of one
after the other.
-/

namespace CodeAtlas.Disk

open CodeAtlas.Path CodeAtlas.Text

variable {d e : Disk} {X Y : Place → Prop} {place p : Place} {path : String} {follow : Bool}
  {ε ε' α β : Type}

/-! ## Paths off the region -/

/-- A path whose components stand at the beginning of another one comes past less. -/
theorem Clear.of_isPrefix {front : String} (h : d.Clear path X)
    (hfront : splitOn '/' front <+: splitOn '/' path) : d.Clear front X := by
  obtain ⟨rest, hrest⟩ := hfront
  exact fun place hplace => h place (hrest ▸ hplace.append rest)

/-- So does the path of the directory that a path lies in. -/
theorem Clear.of_parent? {parent : String} (h : d.Clear path X)
    (hparent : parent? path = some parent) :
    d.Clear parent X := by
  rcases splitOn_parent? hparent with hfront | hidle
  · exact h.of_isPrefix hfront
  · intro place hplace
    rw [hplace.eq_of_idle hidle]
    exact h [] .here

/-- A path that does not come past a region does not come past a smaller one. -/
theorem Clear.mono (h : d.Clear path X) (hsub : ∀ p, Y p → X p) : d.Clear path Y :=
  fun place hplace hin => h place hplace (hsub place hin)

/-! ## Disks that agree off a region -/

/-- Two disks have the same links, and agree but for what stands in a region. -/
structure AgreeOff (X : Place → Prop) (d e : Disk) : Prop where
  /-- the links are the same -/
  sameLinks : d.SameLinks e
  /-- off the region they agree -/
  lookup : ∀ p, ¬X p → d.lookup p = e.lookup p

namespace AgreeOff

theorem refl (X : Place → Prop) (d : Disk) : AgreeOff X d d :=
  ⟨.refl d, fun _ _ => rfl⟩

theorem trans {f : Disk} (h : AgreeOff X d e) (h' : AgreeOff X e f) : AgreeOff X d f :=
  ⟨h.sameLinks.trans h'.sameLinks, fun p hp => (h.lookup p hp).trans (h'.lookup p hp)⟩

/-- The same entry is put at the same place of both. -/
theorem put (h : AgreeOff X d e) (hplace : place ≠ []) (entry : Entry) :
    AgreeOff X (d.put place entry) (e.put place entry) := by
  constructor
  · intro p target
    rw [lookup_put hplace, lookup_put hplace]
    split_ifs
    · rfl
    · exact h.sameLinks p target
  · intro p hp
    rw [lookup_put hplace, lookup_put hplace, h.lookup p hp]

/-- A path off the region leads to the same place. -/
theorem locate (h : AgreeOff X d e) (hclear : d.Clear path X) :
    d.locate follow path = e.locate follow path :=
  locate_congr h.sameLinks h.lookup hclear

/-- The same stands there. -/
theorem lookup_of_locate (h : AgreeOff X d e) (hclear : d.Clear path X)
    (hlocate : d.locate follow path = .ok place) : d.lookup place = e.lookup place :=
  lookup_congr h.sameLinks h.lookup hclear hlocate

theorem isDirectory (h : AgreeOff X d e) (hclear : d.Clear path X) :
    d.isDirectory path = e.isDirectory path := by
  rw [Disk.isDirectory, Disk.isDirectory, find_eq_of_clear h.sameLinks h.lookup hclear]

theorem read (h : AgreeOff X d e) (hclear : d.Clear path X) : d.read path = e.read path :=
  read_eq_of_clear h.sameLinks h.lookup hclear

theorem canonical? (h : AgreeOff X d e) (hclear : d.Clear path X) :
    d.canonical? path = e.canonical? path := by
  rw [Disk.canonical?, Disk.canonical?, ← h.locate hclear]
  cases hlocate : d.locate true path with
  | error cause => rfl
  | ok place => simp only [h.lookup_of_locate hclear hlocate]

theorem writable (h : AgreeOff X d e) (hclear : d.Clear path X) :
    d.writable path = e.writable path := by
  have hslashes := hclear.of_isPrefix (splitOn_withoutEndSlashes path)
  rw [Disk.writable, Disk.writable, ← h.locate hslashes]
  cases hlocate : d.locate true (withoutEndSlashes path) with
  | error cause => rfl
  | ok place => simp only [h.lookup_of_locate hslashes hlocate]

end AgreeOff

/-! ## Runs that end alike -/

/-- Two runs end alike: with the same answer or the same error, on disks that agree off a region. -/
inductive Alike (X : Place → Prop) : EStateM.Result ε Disk α → EStateM.Result ε Disk α → Prop where
  /-- both succeed -/
  | ok {d e : Disk} (answer : α) (h : AgreeOff X d e) : Alike X (.ok answer d) (.ok answer e)
  /-- both fail -/
  | error {d e : Disk} (cause : ε) (h : AgreeOff X d e) : Alike X (.error cause d) (.error cause e)

/-- A run that ends like one that succeeds succeeds. -/
theorem Alike.of_ok {d' : Disk} {answer : α} {r : EStateM.Result ε Disk α}
    (h : Alike X (.ok answer d') r) :
    ∃ e', r = .ok answer e' ∧ AgreeOff X d' e' := by
  cases h with
  | ok _ h => exact ⟨_, rfl, h⟩

/-- **One after the other**: the second run starts from disks that agree. -/
theorem Alike.bind {c : Change ε α} {k : α → Change ε β} (hc : Alike X (c d) (c e))
    (hk : ∀ answer d' e', c d = .ok answer d' → AgreeOff X d' e' →
    Alike X (k answer d') (k answer e')) :
    Alike X ((c >>= k) d) ((c >>= k) e) := by
  simp only [Bind.bind, EStateM.bind]
  generalize c d = first at hc hk
  generalize c e = second at hc
  cases hc with
  | ok answer h => exact hk answer _ _ rfl h
  | error cause h => exact .error cause h

theorem Alike.reporting {c : Change ε α} (f : ε → ε') (hc : Alike X (c d) (c e)) :
    Alike X (Disk.reporting f c d) (Disk.reporting f c e) := by
  rw [Disk.reporting, Disk.reporting]
  generalize c d = first at hc
  generalize c e = second at hc
  cases hc with
  | ok answer h => exact .ok answer h
  | error cause h => exact .error (f cause) h

/-! ## The changes -/

/-- One directory is made alike. -/
theorem alike_makeDirectory (h : AgreeOff X d e) (hclear : d.Clear path X) :
    Alike X (makeDirectory path d) (makeDirectory path e) := by
  have hslashes := hclear.of_isPrefix (splitOn_withoutEndSlashes path)
  rw [makeDirectory, makeDirectory, ← h.locate hslashes]
  cases hlocate : d.locate false (withoutEndSlashes path) with
  | error cause => exact .error cause h
  | ok place =>
    have hsame := h.lookup_of_locate hslashes hlocate
    cases hentry : d.lookup place with
    | some entry =>
      simp only [← hsame, hentry]
      exact .error _ h
    | none =>
      simp only [← hsame, hentry]
      refine .ok () (h.put ?_ .directory)
      rintro rfl
      cases hentry

/-- So are the directories on the way. The induction follows the way up. -/
theorem alike_makeDirectoriesFrom (fuel : Nat) (h : AgreeOff X d e) (hclear : d.Clear path X) :
    Alike X (makeDirectoriesFrom fuel path d) (makeDirectoriesFrom fuel path e) := by
  induction fuel generalizing path d e with
  | zero => exact .error _ h
  | succ fuel ih =>
    -- the last step asks whether the directory is there after all
    have hlast {d e : Disk} (h : AgreeOff X d e) (hclear : d.Clear path X) (cause : DiskError) :
        Alike X (if d.isDirectory path then .ok () d else .error cause d)
          (if e.isDirectory path then .ok () e else .error cause e) := by
      rw [← h.isDirectory hclear]
      split_ifs
      · exact .ok () h
      · exact .error cause h
    have hmake {d e : Disk} (h : AgreeOff X d e) (hclear : d.Clear path X) :=
      alike_makeDirectory h hclear
    simp only [makeDirectoriesFrom]
    split_ifs
    · exact .ok () h
    · have hone := hmake h hclear
      have hfailed := (grows_makeDirectory path d).2
      generalize makeDirectory path d = first at hone hfailed
      generalize makeDirectory path e = second at hone
      cases hone with
      | ok _ h' => exact .ok () h'
      | @error d' e' cause h' =>
        obtain rfl := hfailed cause d' rfl
        cases cause
        case notFound =>
          cases hparent : parent? path with
          | none => exact .error _ h'
          | some parent =>
            have hparents := ih h' (hclear.of_parent? hparent)
            have hlinks := (grows_after_makeDirectoriesFrom fuel parent d').sameLinks
            rw [Change.after] at hlinks
            dsimp only
            generalize makeDirectoriesFrom fuel parent d' = first at hparents hlinks
            generalize makeDirectoriesFrom fuel parent e' = second at hparents
            cases hparents with
            | error cause h'' => exact .error cause h''
            | @ok d'' e'' _ h'' =>
              have hclear' := hclear.sameLinks hlinks
              have htwo := hmake h'' hclear'
              have hfailed := (grows_makeDirectory path d'').2
              dsimp only
              generalize makeDirectory path d'' = first at htwo hfailed
              generalize makeDirectory path e'' = second at htwo
              cases htwo with
              | ok _ h => exact .ok () h
              | @error d₃ e₃ cause h =>
                obtain rfl := hfailed cause d₃ rfl
                exact hlast h hclear' cause
        all_goals exact hlast h' hclear _

/-- **Directories are made alike** on the way of a path off the region. -/
theorem alike_makeDirectories (h : AgreeOff X d e) (hclear : d.Clear path X) :
    Alike X (makeDirectories path d) (makeDirectories path e) :=
  alike_makeDirectoriesFrom _ h hclear

/-- **A file is copied alike** where neither path comes past the region. -/
theorem alike_copy {source target : String} (h : AgreeOff X d e) (hsource : d.Clear source X)
    (htarget : d.Clear target X) : Alike X (copy source target d) (copy source target e) := by
  rw [copy, copy, ← h.canonical? hsource, ← h.writable htarget]
  cases horigin : d.canonical? source with
  | error cause => exact .error cause h
  | ok origin =>
    have hsame := h.lookup_of_locate hsource (locate_of_canonical? horigin)
    simp only [← hsame]
    cases hentry : d.lookup origin with
    | none => exact .error _ h
    | some entry =>
      cases entry with
      | directory | link => exact .error _ h
      | file bytes =>
        cases hgoal : d.writable target with
        | error cause => exact .error cause h
        | ok goal => exact .ok () (h.put (dead_of_writable hgoal).2.ne_nil _)

end CodeAtlas.Disk
