import CodeAtlas.Proofs.Json.Indented
import CodeAtlas.Proofs.Json.Numbers
import CodeAtlas.Proofs.Disk.Locate
import CodeAtlas.Restore.Store

/-!
# The log of restore points

Setup: a log that was written is read back, point by point, when the times of its points have 64
bits: **`RestorePoint.ofLog?_logText`**. Ids that were made for different numbers of points are
different (**`RestoreStore.idOf_inj`**), and each is a name that neither the log nor its draft has
(`RestoreStore.isName_idOf`, `RestoreStore.idOf_ne_logName`).
-/

namespace CodeAtlas

open CodeAtlas.Disk CodeAtlas.Path CodeAtlas.Text CodeAtlas.Decimal

/-! ## Points -/

namespace RestorePoint

/-- A time of 64 bits is read back. -/
theorem timestamp?_ofNat {n : Nat} (h : n < UInt64.size) : timestamp? (.ofNat n) = some n := by
  simp [timestamp?, Json.natural?, Json.ofNat, Json.integer?, Json.Literal.integer?_ofNat h, h]

/-- A point whose time has 64 bits is read back. -/
theorem ofJson?_toJson {p : RestorePoint} (h : p.timestamp < UInt64.size) :
    ofJson? p.toJson = some p := by
  simp [toJson, ofJson?, Json.onlyField?, Json.text?, timestamp?_ofNat h, files?, Json.items?,
    Json.mapM_text?, -List.mapM_map]

/-- The names lie two deeper than the point. -/
theorem fits_toJson (p : RestorePoint) (depth : Nat) : Json.Fits (depth + 2) p.toJson := by
  refine .object fun field hfield => ?_
  simp only [List.mem_cons, List.not_mem_nil, or_false] at hfield
  rcases hfield with rfl | rfl | rfl | rfl
  · exact .text p.id
  · exact .number (Json.Literal.wellFormed_ofNat _)
  · exact Json.fits_texts depth p.files
  · exact .text p.message

/-- Points whose times have 64 bits are read back. -/
theorem mapM_ofJson? {points : List RestorePoint} (h : ∀ p ∈ points, p.timestamp < UInt64.size) :
    (points.map toJson).mapM ofJson? = some points := by
  induction points with
  | nil => rfl
  | cons p points ih =>
    rw [List.map_cons, List.mapM_cons, ofJson?_toJson (h p List.mem_cons_self),
      ih fun q hq => h q (List.mem_cons_of_mem _ hq)]
    rfl

/-- **A log is read back**, if the times of its points have 64 bits. -/
theorem ofLog?_logText {points : List RestorePoint} (h : ∀ p ∈ points, p.timestamp < UInt64.size) :
    ofLog? (logText points) = some points := by
  have hfits : Json.Fits Json.maxDepth (.array (points.map toJson)) := by
    refine .array fun j hj => ?_
    obtain ⟨p, -, rfl⟩ := List.mem_map.mp hj
    exact p.fits_toJson 124
  rw [ofLog?, logText, Json.parse?_indented hfits]
  exact mapM_ofJson? h

/-- A time that is read has 64 bits. -/
theorem timestamp_lt_of_ofJson? {j : Json} {p : RestorePoint} (h : ofJson? j = some p) :
    p.timestamp < UInt64.size := by
  have htime {j : Json} {n : Nat} (hread : timestamp? j = some n) : n < UInt64.size := by
    simpa using (Option.filter_eq_some_iff.mp hread).2
  cases j with
  | object fields =>
    simp only [ofJson?, Option.bind_eq_bind, Option.bind_eq_some_iff, Option.some.injEq] at h
    obtain ⟨id, -, time, ⟨written, -, hread⟩, files, -, message, -, rfl⟩ := h
    exact htime hread
  | array items =>
    unfold ofJson? at h
    split at h
    · cases ‹Json.array items = Json.object _›
    · simp only [Option.bind_eq_bind, Option.bind_eq_some_iff, Option.some.injEq] at h
      obtain ⟨id, -, time, hread, files, -, message, -, rfl⟩ := h
      exact htime hread
    · cases h
  | _ => cases h

/-- The times of a log that is read have 64 bits. -/
theorem timestamp_lt_of_ofLog? {text : String} {points : List RestorePoint}
    (h : ofLog? text = some points) :
    ∀ p ∈ points, p.timestamp < UInt64.size := by
  simp only [ofLog?, Option.bind_eq_bind, Option.bind_eq_some_iff] at h
  obtain ⟨_, -, items, -, hread⟩ := h
  induction items generalizing points with
  | nil =>
    cases hread
    exact List.forall_mem_nil _
  | cons item items ih =>
    simp only [List.mapM_cons, Option.bind_eq_bind, Option.bind_eq_some_iff, Option.pure_def,
      Option.some.injEq] at hread
    obtain ⟨p, hp, rest, hrest, rfl⟩ := hread
    exact List.forall_mem_cons.mpr ⟨timestamp_lt_of_ofJson? hp, ih hrest⟩

end RestorePoint

/-! ## Ids -/

namespace RestoreStore

/-- The characters of an id. -/
theorem toList_idOf (now number : Nat) : (idOf now number).toList =
    ('r' :: 'p' :: '-' :: Nat.toDigits 10 now) ++ '-' :: Nat.toDigits 10 number := by
  have hfront : (toString "rp-").toList = ['r', 'p', '-'] := rfl
  have hdash : (toString "-").toList = ['-'] := rfl
  simp [idOf, hfront, hdash]

/-- **Ids for different numbers are different**, whatever the time is. -/
theorem idOf_inj {now now' number number' : Nat} (h : idOf now number = idOf now' number') :
    number = number' := by
  have hlast (now number : Nat) :
      (piecesAt '-' (idOf now number).toList).getLast? = some (Nat.toDigits 10 number) := by
    rw [toList_idOf, piecesAt_append_cons, piecesAt_of_notMem (notMem_toDigits (by decide) number),
      List.getLast?_concat]
  have hdigits := hlast now number
  rw [h, hlast] at hdigits
  have hvalue := congrArg digitsValue (Option.some.inj hdigits)
  rwa [digitsValue_toDigits, digitsValue_toDigits, eq_comm] at hvalue

/-- An id is a name. -/
theorem isName_idOf (now number : Nat) : IsName (idOf now number) := by
  have htext := toList_idOf now number
  refine ⟨?_, ?_, ?_, ?_⟩
  · intro h
    simp [h] at htext
  · intro h
    simp [h] at htext
  · intro h
    simp [h] at htext
  · rw [htext]
    have hnow := notMem_toDigits (c := '/') (by decide) now
    have hnumber := notMem_toDigits (c := '/') (by decide) number
    simp [hnow, hnumber]

/-- The log and its draft are called otherwise. -/
theorem idOf_ne_logName (now number : Nat) :
    idOf now number ≠ logName ∧ idOf now number ≠ logName ++ ".tmp" := by
  have htext := toList_idOf now number
  constructor <;> intro h <;> simp [h, logName] at htext

/-- The log has a name. -/
theorem isName_logName : IsName logName :=
  ⟨by decide, by decide, by decide, by decide⟩

/-- The draft of the log has a name. -/
theorem isName_draft : IsName (logName ++ ".tmp") :=
  ⟨by decide, by decide, by decide, by decide⟩

/-! ## The log on a disk -/

/-- The points that an entry holds when it is read as a log. -/
def pointsIn : Option Entry → List RestorePoint
  | some (.file bytes) => ((String.fromUTF8? bytes).bind RestorePoint.ofLog?).getD []
  | _ => []

/-- The text of points with proper times holds these points. -/
theorem pointsIn_logText {points : List RestorePoint}
    (htimes : ∀ p ∈ points, p.timestamp < UInt64.size) :
    pointsIn (some (.file (RestorePoint.logText points).toUTF8)) = points := by
  simp only [pointsIn, fromUTF8?_toUTF8, Option.bind_some, RestorePoint.ofLog?_logText htimes,
    Option.getD_some]

/-- The times of the points that are held are proper. -/
theorem timestamp_lt_of_pointsIn {entry : Option Entry} :
    ∀ p ∈ pointsIn entry, p.timestamp < UInt64.size := by
  intro p hp
  unfold pointsIn at hp
  split at hp
  · next bytes =>
    cases htext : (String.fromUTF8? bytes).bind RestorePoint.ofLog? with
    | none => simp [htext] at hp
    | some points =>
      obtain ⟨text, -, hlog⟩ := Option.bind_eq_some_iff.mp htext
      rw [htext] at hp
      exact RestorePoint.timestamp_lt_of_ofLog? hlog p hp
  · cases hp

/-- The log is read where its path leads. -/
theorem load_eq_pointsIn {s : RestoreStore} {d : Disk} {place : Place}
    (hlocate : d.locate true s.logPath = .ok place) : s.load d = pointsIn (d.lookup place) := by
  rw [load, Disk.read, Disk.find, hlocate]
  cases hentry : d.lookup place with
  | none => simp [hentry, pointsIn]
  | some entry => cases entry <;> simp [hentry, pointsIn]

/-- Where the path of the log leads nowhere there are no points. -/
theorem load_of_locate_error {s : RestoreStore} {d : Disk} {e : DiskError}
    (hlocate : d.locate true s.logPath = .error e) : s.load d = [] := by
  simp only [load, Disk.read, Disk.find, hlocate]

/-- The text of points with proper times is read as these points. -/
theorem load_of_text {s : RestoreStore} {d : Disk} {points : List RestorePoint} {place : Place}
    (hlocate : d.locate true s.logPath = .ok place)
    (hlog : d.lookup place = some (.file (RestorePoint.logText points).toUTF8))
    (htimes : ∀ p ∈ points, p.timestamp < UInt64.size) : s.load d = points := by
  rw [load_eq_pointsIn hlocate, hlog, pointsIn_logText htimes]

end RestoreStore

end CodeAtlas
