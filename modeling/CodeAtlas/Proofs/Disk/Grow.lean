import CodeAtlas.Proofs.Disk.Save

/-!
# What making directories does

Setup: directories are made where nothing stood (`Disk.Grows`).
**`Disk.grows_after_makeDirectories`** says that nothing else happens, so a file stays what it was,
and **`Disk.Grows.locate`** that a path which led somewhere leads there still. (A path that led
nowhere may lead somewhere now.)
-/

namespace CodeAtlas

/-- The disk after a change, whether it succeeds or not. -/
def Change.after {ε α : Type} (c : Change ε α) (d : Disk) : Disk :=
  match c d with
  | .ok _ d => d
  | .error _ d => d

section

variable {ε ε' α β : Type}

/-- A change that follows another one starts where that one ends, if it succeeds. -/
theorem Change.after_bind (c : Change ε α) (k : α → Change ε β) (d : Disk) :
    (c >>= k).after d = match c d with
      | .ok a d => (k a).after d
      | .error _ d => d := by
  simp only [Change.after, bind, EStateM.bind]
  cases c d <;> rfl

/-- Other words for a failure change no disk. -/
theorem Change.after_reporting (f : ε → ε') (c : Change ε α) (d : Disk) :
    Change.after (Disk.reporting f c) d = c.after d := by
  rw [Change.after, Change.after, Disk.reporting]
  cases c d <;> rfl

end

namespace Disk

open CodeAtlas.Path CodeAtlas.Text

/-- The second disk has new directories, and is like the first everywhere else. -/
def Grows (d d' : Disk) : Prop :=
  ∀ place, d'.lookup place = d.lookup place ∨
    d.lookup place = none ∧ d'.lookup place = some .directory

variable {d d' d'' : Disk} {place : Place} {follow : Bool}

namespace Grows

theorem refl (d : Disk) : d.Grows d :=
  fun _ => .inl rfl

theorem trans (h : d.Grows d') (h' : d'.Grows d'') : d.Grows d'' := by
  intro place
  rcases h place with hsame | ⟨hnone, hnew⟩ <;> rcases h' place with hsame' | ⟨hnone', hnew'⟩
  · exact .inl (hsame'.trans hsame)
  · exact .inr ⟨hsame ▸ hnone', hnew'⟩
  · exact .inr ⟨hnone, hsame'.trans hnew⟩
  · rw [hnew] at hnone'
    cases hnone'

/-- What stands on the first disk stands on the second. -/
theorem lookup_of_some (h : d.Grows d') {entry : Entry} (hentry : d.lookup place = some entry) :
    d'.lookup place = some entry := by
  rcases h place with hsame | ⟨hnone, -⟩
  · rw [hsame, hentry]
  · rw [hentry] at hnone
    cases hnone

/-- What is new is a directory. -/
theorem lookup_iff (h : d.Grows d') {entry : Entry} (hentry : entry ≠ .directory) :
    d'.lookup place = some entry ↔ d.lookup place = some entry := by
  refine ⟨fun hnew => ?_, h.lookup_of_some⟩
  rcases h place with hsame | ⟨-, hdirectory⟩
  · rw [← hsame, hnew]
  · rw [hdirectory] at hnew
    exact absurd (Option.some.inj hnew).symm hentry

/-- The same steps lead to the same place. -/
theorem leads (h : d.Grows d') {links : Nat} {here : Place} {rest : List String}
    (hleads : Leads d follow links here rest place) : Leads d' follow links here rest place :=
  hleads.mono (fun _ => h.lookup_of_some) fun _ _ => (h.lookup_iff (by simp)).symm

/-- **A path leads to where it led.** -/
theorem locate (h : d.Grows d') {path : String} (hlocate : d.locate follow path = .ok place) :
    d'.locate follow path = .ok place :=
  locate_iff_leads.mpr (h.leads (locate_iff_leads.mp hlocate))

end Grows

/-- A new directory where nothing stood. -/
theorem grows_put (h : d.lookup place = none) : d.Grows (d.put place .directory) := by
  have hplace : place ≠ [] := by
    rintro rfl
    cases h
  intro p
  rw [lookup_put hplace]
  split_ifs with hp
  · exact .inr ⟨hp ▸ h, rfl⟩
  · exact .inl rfl

/-- Making one directory, and failing to. -/
theorem grows_makeDirectory (path : String) (d : Disk) :
    (∀ d', makeDirectory path d = .ok () d' → d.Grows d') ∧
      ∀ e d', makeDirectory path d = .error e d' → d' = d := by
  rw [makeDirectory]
  constructor
  · intro d' h
    split at h
    · cases h
    · split at h
      · cases h
      · next hnone =>
        cases h
        exact grows_put hnone
  · intro e d' h
    split at h
    · cases h; rfl
    · split at h
      · cases h; rfl
      · cases h

/-- Making a directory, or failing to, grows the disk. -/
theorem grows_after_makeDirectory (path : String) (d : Disk) :
    d.Grows ((makeDirectory path).after d) := by
  obtain ⟨hmade, hfailed⟩ := grows_makeDirectory path d
  rw [Change.after]
  cases hmake : makeDirectory path d with
  | ok _ d' => exact hmade d' hmake
  | error e d' => exact hfailed e d' hmake ▸ .refl d

/-- What making directories leaves: the disk as it was, what making the last one leaves, or what
making the directory that it lies in leaves, and perhaps making the last one then. -/
theorem after_makeDirectoriesFrom (fuel : Nat) (path : String) (d : Disk) :
    (makeDirectoriesFrom (fuel + 1) path).after d = d ∨
      (makeDirectoriesFrom (fuel + 1) path).after d = (makeDirectory path).after d ∨
      ∃ parent, parent? path = some parent ∧
        ((makeDirectoriesFrom (fuel + 1) path).after d = (makeDirectoriesFrom fuel parent).after d ∨
          (makeDirectoriesFrom (fuel + 1) path).after d =
            (makeDirectory path).after ((makeDirectoriesFrom fuel parent).after d)) := by
  simp only [Change.after, makeDirectoriesFrom]
  split_ifs
  · exact .inl rfl
  · cases hmake : makeDirectory path d with
    | ok _ d₁ => exact .inr (.inl (by simp))
    | error e d₁ =>
      obtain rfl := (grows_makeDirectory path d).2 e d₁ hmake
      cases e
      case notFound =>
        cases hparent : parent? path with
        | none => exact .inl rfl
        | some parent =>
          refine .inr (.inr ⟨parent, rfl, ?_⟩)
          cases hmade : makeDirectoriesFrom fuel parent d₁ with
          | error e d₂ => exact .inl (by simp [hmade])
          | ok _ d₂ =>
            right
            cases hlast : makeDirectory path d₂ with
            | ok _ d₃ => simp [hmade, hlast]
            | error e d₃ =>
              simp only [hmade, hlast]
              split_ifs <;> rfl
      all_goals
        left
        simp only
        split_ifs <;> rfl

/-- Making directories in some many steps puts them where nothing stood. -/
theorem grows_after_makeDirectoriesFrom (fuel : Nat) (path : String) (d : Disk) :
    d.Grows ((makeDirectoriesFrom fuel path).after d) := by
  induction fuel generalizing path d with
  | zero => exact .refl d
  | succ fuel ih =>
    rcases after_makeDirectoriesFrom fuel path d with h | h | ⟨parent, -, h | h⟩ <;> rw [h]
    · exact .refl d
    · exact grows_after_makeDirectory path d
    · exact ih parent d
    · exact (ih parent d).trans (grows_after_makeDirectory path _)

/-- **Making directories** puts them where nothing stood, also when it fails on the way. -/
theorem grows_after_makeDirectories (path : String) (d : Disk) :
    d.Grows ((makeDirectories path).after d) :=
  grows_after_makeDirectoriesFrom _ path d

/-- Making directories that succeeds. -/
theorem grows_makeDirectories {path : String} (h : makeDirectories path d = .ok () d') :
    d.Grows d' := by
  have hgrows := grows_after_makeDirectories path d
  rwa [Change.after, h] at hgrows

/-- **A directory is made** where nothing has its name. -/
theorem makeDirectories_of_new {directory name : String} {home : Place}
    (h : d.locate true directory = .ok home) (hhome : d.lookup home = some .directory)
    (hname : IsName name) (hnew : d.lookup (home ++ [name]) = none) :
    makeDirectories (join directory name) d = .ok () (d.put (home ++ [name]) .directory) := by
  have hlocate := locate_join false h hhome hname (by simp [hnew])
  obtain ⟨c, hlast, -⟩ := hname.getLast?_eq
  have hpath : join directory name ≠ "" := by
    intro hempty
    have hjoin := getLast?_join directory hname.isAbsolute_eq hlast
    simp [hempty] at hjoin
  simp only [makeDirectories, makeDirectoriesFrom, if_neg hpath, makeDirectory,
    (withoutEndSlashes_join directory hname).1, hlocate, hnew]

end Disk

end CodeAtlas
