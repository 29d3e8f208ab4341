import CodeAtlas.Proofs.Json.RoundTrip

/-!
# Reading the indented layout

Setup: the indented layout differs from the compact one in the blanks after an opening bracket,
after a comma and a colon, and before a closing bracket. The reader skips them, so it reads the same
value: **`parse?_indented`**.
-/

namespace CodeAtlas.Json

/-- A new line is blank. -/
theorem blank_newline (level : Nat) : Blank (newline level) := by
  intro c hc
  rcases List.mem_cons.mp hc with rfl | hc
  · rfl
  · rw [List.eq_of_mem_replicate hc]
    rfl

/-- The characters of a field. -/
def writeIndentedField (level : Nat) (field : String × Json) : List Char :=
  writeText field.1 ++ ':' :: ' ' :: writeIndented level field.2

/-- The lines of an array, up to what stands between the brackets. -/
theorem writeIndented_array (level : Nat) {items : List Json} (h : items ≠ []) :
    writeIndented level (.array items) = '[' :: (newline (level + 1) ++
      (separated (',' :: newline (level + 1)) (items.map (writeIndented (level + 1))) ++
        (newline level ++ [']']))) := by
  obtain ⟨item, items, rfl⟩ := List.exists_cons_of_ne_nil h
  rw [writeIndented]
  conv_rhs => rw [← List.attach_map_val (l := item :: items)]
  simp only [List.cons_append, List.append_assoc]

/-- The lines of an object, up to what stands between the brackets. -/
theorem writeIndented_object (level : Nat) {fields : List (String × Json)} (h : fields ≠ []) :
    writeIndented level (.object fields) = '\x7b' :: (newline (level + 1) ++
      (separated (',' :: newline (level + 1)) (fields.map (writeIndentedField (level + 1))) ++
        (newline level ++ ['\x7d']))) := by
  obtain ⟨first, fields, rfl⟩ := List.exists_cons_of_ne_nil h
  rw [writeIndented]
  conv_rhs => rw [← List.attach_map_val (l := first :: fields)]
  simp only [List.cons_append, List.append_assoc]
  rfl

/-- A value without items looks as it does in the compact layout. -/
theorem writeIndented_eq_write (level : Nat) {j : Json} (harray : ∀ items, j ≠ .array items)
    (hobject : ∀ fields, j ≠ .object fields) : j.writeIndented level = j.write := by
  cases j with
  | array items => exact absurd rfl (harray items)
  | object fields => exact absurd rfl (hobject fields)
  | null | bool | number | text => rw [writeIndented] <;> simp

/-- A value starts as it does in the compact layout. -/
theorem solid_writeIndented {depth : Nat} {j : Json} (h : Fits depth j) (level : Nat) :
    Solid (j.writeIndented level) := by
  have hsolid := solid_write h
  cases h with
  | null | bool | number | text => rwa [writeIndented_eq_write _ (by simp) (by simp)]
  | @array _ items _ =>
    by_cases hitems : items = []
    · subst hitems
      rw [writeIndented]
      exact ⟨'[', _, rfl, rfl, by decide, by decide⟩
    · rw [writeIndented_array _ hitems]
      exact ⟨'[', _, rfl, rfl, by decide, by decide⟩
  | @object _ fields _ =>
    by_cases hfields : fields = []
    · subst hfields
      rw [writeIndented]
      exact ⟨'\x7b', _, rfl, rfl, by decide, by decide⟩
    · rw [writeIndented_object _ hfields]
      exact ⟨'\x7b', _, rfl, rfl, by decide, by decide⟩

/-- A blank in front of a value is skipped. -/
theorem readValue?_cons_space (size depth : Nat) (cs : List Char) :
    readValue? size depth (' ' :: cs) = readValue? size depth cs := by
  rw [readValue?.eq_def, readValue?.eq_def size depth cs]
  rfl

/-- A field is read back, when its value is. -/
theorem readField?_writeIndentedField {size depth level : Nat} (field : String × Json)
    (hsize : (writeIndentedField level field).length ≤ size) {rest : List Char}
    (hvalue : readValue? size depth (field.2.writeIndented level ++ rest) = some (field.2, rest)) :
    readField? size (readValue? size depth) (writeIndentedField level field ++ rest) =
      some (field, rest) := by
  simp only [writeIndentedField, List.length_append, List.length_cons] at hsize
  have hname := readText?_append field.1 (show (writeText field.1).length ≤ size by omega)
    (':' :: ' ' :: (field.2.writeIndented level ++ rest))
  simp [writeIndentedField, writeText, readField?, hname, skipSpaces, isSpace,
    readValue?_cons_space, hvalue]

/-- A value without items is read back. -/
theorem readValue?_leaf {depth : Nat} {j : Json} (h : Fits depth j)
    (harray : ∀ items, j ≠ .array items) (hobject : ∀ fields, j ≠ .object fields) {size : Nat} :
    ∀ level, (j.writeIndented level).length ≤ size → ∀ rest, EndsNumber rest →
      readValue? size depth (j.writeIndented level ++ rest) = some (j, rest) := by
  intro level hsize rest hrest
  rw [writeIndented_eq_write level harray hobject] at hsize ⊢
  exact readValue?_write h hsize rest hrest

/-- **A value is read back**, whatever follows it that continues no number. The induction is on the
nesting, as for the compact layout; a value without items looks the same in both. -/
theorem readValue?_writeIndented {depth : Nat} {j : Json} (h : Fits depth j) {size : Nat} :
    ∀ level, (j.writeIndented level).length ≤ size → ∀ rest, EndsNumber rest →
      readValue? size depth (j.writeIndented level ++ rest) = some (j, rest) := by
  induction h with
  | null => exact readValue?_leaf .null (by simp) (by simp)
  | bool value => exact readValue?_leaf (.bool value) (by simp) (by simp)
  | number hl => exact readValue?_leaf (.number hl) (by simp) (by simp)
  | text s => exact readValue?_leaf (.text s) (by simp) (by simp)
  | @array depth items hitems ih =>
    intro level hsize rest _
    by_cases hempty : items = []
    · subst hempty
      rw [writeIndented]
      exact readValue?_array rfl
    · rw [writeIndented_array _ hempty] at hsize ⊢
      have hsolid : ∀ x ∈ items, Solid (x.writeIndented (level + 1)) :=
        fun x hx => solid_writeIndented (hitems x hx) _
      have hcount := length_le_length_separated hsolid (',' :: newline (level + 1))
      simp only [List.length_cons, List.length_append] at hsize
      have hgroup := readGroup?_separated size (readValue? size depth) (.inl rfl)
        (blank_newline (level + 1)) (blank_newline level) rest items
        (fun x hx => ih x hx (level + 1)
          ((length_le_separated hx (',' :: newline (level + 1))).trans (by omega))) hsolid
        (by omega)
      simp only [List.cons_append, List.append_assoc, List.nil_append]
      exact readValue?_array hgroup
  | @object depth fields hfields ih =>
    intro level hsize rest _
    by_cases hempty : fields = []
    · subst hempty
      rw [writeIndented]
      exact readValue?_object rfl
    · rw [writeIndented_object _ hempty] at hsize ⊢
      have hsolid : ∀ x ∈ fields, Solid (writeIndentedField (level + 1) x) :=
        fun x _ => (solid_writeText x.1).append _
      have hcount := length_le_length_separated hsolid (',' :: newline (level + 1))
      simp only [List.length_cons, List.length_append] at hsize
      have hfield : ∀ x ∈ fields, ∀ rest, EndsNumber rest →
          readField? size (readValue? size depth) (writeIndentedField (level + 1) x ++ rest) =
            some (x, rest) := by
        intro x hx rest hrest
        have hlength : (writeIndentedField (level + 1) x).length ≤ size :=
          (length_le_separated hx (',' :: newline (level + 1))).trans (by omega)
        have hvalue : (x.2.writeIndented (level + 1)).length ≤
            (writeIndentedField (level + 1) x).length := by
          simp only [writeIndentedField, List.length_append, List.length_cons]
          omega
        exact readField?_writeIndentedField x hlength
          (ih x hx (level + 1) (hvalue.trans hlength) rest hrest)
      have hgroup := readGroup?_separated size (readField? size (readValue? size depth)) (.inr rfl)
        (blank_newline (level + 1)) (blank_newline level) rest fields hfield hsolid (by omega)
      simp only [List.cons_append, List.append_assoc, List.nil_append]
      exact readValue?_object hgroup

/-- **The indented layout of a value is read as the value.** -/
theorem parse?_indented {j : Json} (h : Fits maxDepth j) : parse? j.indented = some j := by
  have hread :=
    readValue?_writeIndented h 0 (Nat.le_succ (j.writeIndented 0).length) [] endsNumber_nil
  rw [List.append_nil] at hread
  rw [parse?, indented, String.toList_ofList]
  simp only [hread]
  rfl

end CodeAtlas.Json
