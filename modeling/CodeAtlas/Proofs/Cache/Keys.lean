import CodeAtlas.Index.Refresh
import CodeAtlas.Proofs.Json.Numbers
import CodeAtlas.Proofs.Path.Names

/-!
# Whose keys are whose

Setup: a refresh drops the keys that belong to a file (`belongsTo`), given by its name, from caches
that hold keys of files and of identifiers. Names without colons keep the two kinds of keys apart,
and the names in them: **`belongsTo_file_iff`** and **`belongsTo_identifier_iff`**. The key of a
call site tells path and line, with or without colons in the path (`CacheKey.callSite_inj`).
-/

namespace CodeAtlas

open CodeAtlas.Text CodeAtlas.Decimal

/-- What stands before the first colon of a text. -/
theorem takeWhile_append_colon {before : List Char} (h : ':' ∉ before) (rest : List Char) :
    (before ++ ':' :: rest).takeWhile (· ≠ ':') = before := by
  rw [List.takeWhile_append_of_pos]
  · simp
  · intro c hc
    rw [decide_eq_true_eq]
    rintro rfl
    exact h hc

/-- A text with a number behind its last colon tells both. -/
theorem append_toDigits_inj {cs cs' : List Char} {n n' : Nat}
    (h : cs ++ ':' :: Nat.toDigits 10 n = cs' ++ ':' :: Nat.toDigits 10 n') :
    cs = cs' ∧ n = n' := by
  have hlast (cs : List Char) (n : Nat) :
      ((cs ++ ':' :: Nat.toDigits 10 n).reverse.takeWhile (· ≠ ':')).reverse =
        Nat.toDigits 10 n := by
    rw [List.reverse_append, List.reverse_cons, List.append_assoc, List.singleton_append,
      takeWhile_append_colon (by rw [List.mem_reverse]; exact notMem_toDigits (by decide) n),
      List.reverse_reverse]
  have hdigits : Nat.toDigits 10 n = Nat.toDigits 10 n' := by rw [← hlast cs n, h, hlast]
  rw [hdigits] at h
  refine ⟨List.append_cancel_right h, ?_⟩
  rw [← digitsValue_toDigits n, hdigits, digitsValue_toDigits]

namespace CacheKey

/-- The characters of a call site's key. -/
theorem toList_callSite (path : String) (line : Nat) : (callSite path line).toList =
    callSiteMark.toList ++ (path.toList ++ ':' :: Nat.toDigits 10 line) := by
  simp [callSite, toString]

/-- Call sites have different keys. -/
theorem callSite_inj {path path' : String} {line line' : Nat}
    (h : callSite path line = callSite path' line') : path = path' ∧ line = line' := by
  have hlists := congrArg String.toList h
  rw [toList_callSite, toList_callSite, List.append_cancel_left_eq] at hlists
  obtain ⟨hpath, hline⟩ := append_toDigits_inj hlists
  exact ⟨String.toList_inj.mp hpath, hline⟩

/-- The characters of an identifier's key. -/
theorem toList_identifier (id : String) :
    (identifier id).toList = 'i' :: 'd' :: ':' :: id.toList := by
  rw [identifier, String.toList_append]
  rfl

/-- Identifiers have different keys. -/
theorem identifier_inj {id id' : String} (h : identifier id = identifier id') : id = id' := by
  have hlists := congrArg String.toList h
  rw [toList_identifier, toList_identifier] at hlists
  exact String.toList_inj.mp (by simpa using hlists)

/-- The key of an identifier is no key of a call site. -/
theorem callSitePath?_identifier (id : String) : callSitePath? (identifier id) = none := by
  rw [callSitePath?, toList_identifier]
  rfl

/-- A text without colons is no key of a call site. -/
theorem callSitePath?_of_notMem {key : String} (h : ':' ∉ key.toList) :
    callSitePath? key = none := by
  rw [callSitePath?]
  cases hrest : dropLead? callSiteMark.toList key.toList with
  | none => rfl
  | some rest =>
    rw [Path.dropLead?_eq_some_iff.mp hrest] at h
    exact absurd (List.mem_append_left _ (by decide)) h

end CacheKey

/-- **The key of a file belongs to that file alone.** -/
theorem belongsTo_file_iff {file name : String} (h : ':' ∉ file.toList) :
    belongsTo (CacheKey.file file) name = true ↔ file = name := by
  have hmark : dropStart? file CacheKey.identifierMark = none := by
    rw [dropStart?, Option.map_eq_none_iff]
    cases hrest : dropLead? CacheKey.identifierMark.toList file.toList with
    | none => rfl
    | some rest =>
      rw [Path.dropLead?_eq_some_iff.mp hrest] at h
      exact absurd (List.mem_append_left _ (by decide)) h
  simp [belongsTo, CacheKey.file, CacheKey.callSitePath?_of_notMem h, hmark]

/-- **The key of an identifier belongs to the file of the identifier alone.** -/
theorem belongsTo_identifier_iff {id file name : String} {rest : List Char}
    (hid : id.toList = file.toList ++ ':' :: rest) (hfile : ':' ∉ file.toList)
    (hname : ':' ∉ name.toList) :
    belongsTo (CacheKey.identifier id) name = true ↔ file = name := by
  have hkey : (CacheKey.identifier id == name) = false := by
    rw [beq_eq_false_iff_ne]
    rintro rfl
    rw [CacheKey.toList_identifier] at hname
    simp at hname
  have hmark : dropStart? (CacheKey.identifier id) CacheKey.identifierMark = some id := by
    have hlead := Path.dropLead?_append CacheKey.identifierMark.toList id.toList
    rw [dropStart?, CacheKey.identifier, String.toList_append, hlead, Option.map_some,
      String.ofList_toList]
  rw [belongsTo, hkey, CacheKey.callSitePath?_identifier, hmark, Bool.false_or]
  simp only [Option.bind_some, dropStart?]
  constructor
  · intro h
    cases hrest : dropLead? name.toList id.toList with
    | none => rw [hrest] at h; cases h
    | some tail =>
      rw [hrest] at h
      have htail : tail.head? = some ':' := by simpa using h
      obtain ⟨more, rfl⟩ := List.head?_eq_some_iff.mp htail
      -- both names stand in front of the first colon
      rw [hid] at hrest
      have hlists := congrArg (List.takeWhile (· ≠ ':')) (Path.dropLead?_eq_some_iff.mp hrest)
      rw [takeWhile_append_colon hfile, takeWhile_append_colon hname] at hlists
      exact String.toList_inj.mp hlists
  · rintro rfl
    rw [hid, Path.dropLead?_append]
    simp

end CodeAtlas
