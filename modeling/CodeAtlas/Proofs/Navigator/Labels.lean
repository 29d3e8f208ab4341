import CodeAtlas.Navigator.Label
import CodeAtlas.Proofs.Json.Indented

/-!
# Names found in an answer

Setup: the list of names in an answer reaches from the first opening bracket to the last closing
one. Brackets inside the names lie between these two, so only what stands around the list must not
hold any: no opening bracket before it, no closing one after it (`bracketed?_append`). What is
between the brackets is read as it was written, and only then are the names trimmed and cut.

* `parseLabels_eq_some` — what is known of the names that are found.
* `parseLabels_of_array` — the names of any list that is read as these names.
* **`parseLabels_recovers`** — the names of a written list are found in an answer, and whatever is
  found is as many names as expected, none of them empty or too long.
-/

namespace CodeAtlas.Navigator

open CodeAtlas.Text

variable {before after text label : String} {labels found : List String} {expected : Nat}

/-! ## Finding the list -/

/-- What stands before the first place of a character is passed over. -/
theorem dropWhile_ne_append {c : Char} {xs : List Char} (h : c ∉ xs) (ys : List Char) :
    (xs ++ c :: ys).dropWhile (fun x => decide (x ≠ c)) = c :: ys := by
  have hall : ∀ x ∈ xs, decide (x ≠ c) = true := fun x hx => decide_eq_true fun hc => h (hc ▸ hx)
  rw [List.dropWhile_append_of_pos hall, List.dropWhile_cons_of_neg (by simp)]

/-- **The list is found between its brackets**, whatever brackets are in it. -/
theorem bracketed?_append {array : String} {inner : List Char}
    (harray : array.toList = '[' :: (inner ++ [']'])) (hbefore : '[' ∉ before.toList)
    (hafter : ']' ∉ after.toList) : bracketed? (before ++ array ++ after) = some array := by
  have hopen : (before ++ array ++ after).toList.dropWhile (fun c => decide (c ≠ '[')) =
      '[' :: inner ++ ']' :: after.toList := by
    have htext : (before ++ array ++ after).toList =
        before.toList ++ '[' :: (inner ++ ']' :: after.toList) := by simp [harray]
    rw [htext, dropWhile_ne_append hbefore, List.cons_append]
  have hclose :
      ('[' :: inner ++ ']' :: after.toList).reverse.dropWhile (fun c => decide (c ≠ ']')) =
      array.toList.reverse := by
    have hreverse : ('[' :: inner ++ ']' :: after.toList).reverse =
        after.toList.reverse ++ ']' :: ('[' :: inner).reverse := by simp
    rw [hreverse, dropWhile_ne_append (by simpa using hafter), harray]
    simp
  have hsome : array.toList ≠ [] := by rw [harray]; exact List.cons_ne_nil _ _
  rw [bracketed?, hopen]
  simp only [hclose, List.reverse_reverse, List.isEmpty_eq_false_iff.mpr hsome,
    String.ofList_toList, Bool.false_eq_true, if_false]

/-! ## Reading the names -/

/-- A name that is not blank stays a name when it is trimmed and cut. -/
theorem trimLabel_ne_empty (h : trim label ≠ "") : trimLabel label ≠ "" := by
  intro hempty
  have htake : (trim label).toList.take labelChars = [] := by
    rw [trimLabel, truncate] at hempty
    simpa using congrArg String.toList hempty
  rcases List.take_eq_nil_iff.mp htake with hzero | hnil
  · exact absurd hzero (by decide)
  · exact h (String.toList_inj.mp hnil)

/-- A name that is cut is not too long. -/
theorem length_trimLabel_le (label : String) : (trimLabel label).length ≤ labelChars := by
  rw [trimLabel, truncate, String.length_ofList]
  exact List.length_take_le _ _

/-- **What is known of the names that are found**: they are trimmed and cut, as many as expected,
and none of them is empty. -/
theorem parseLabels_eq_some (h : parseLabels text expected = some found) :
    ∃ labels : List String, found = labels.map trimLabel ∧ labels.length = expected ∧
      ∀ label ∈ found, label ≠ "" := by
  obtain ⟨json, -, h⟩ := Option.bind_eq_some_iff.mp h
  obtain ⟨items, -, h⟩ := Option.bind_eq_some_iff.mp h
  obtain ⟨labels, -, h⟩ := Option.bind_eq_some_iff.mp h
  dsimp only at h
  split at h
  · next hgood =>
    obtain rfl := Option.some.inj h
    rw [Bool.and_eq_true, decide_eq_true_eq, List.all_eq_true] at hgood
    exact ⟨labels, rfl, hgood.1, fun label hlabel => of_decide_eq_true (hgood.2 label hlabel)⟩
  · cases h

/-- **The names of a list are found** wherever the list stands, if it is read as these names and
starts and ends with its brackets. -/
theorem parseLabels_of_array {array : String} {inner : List Char}
    (harray : array.toList = '[' :: (inner ++ [']']))
    (hread : Json.parse? array = some (.array (labels.map .text)))
    (hnames : ∀ label ∈ labels, trim label ≠ "") (hbefore : '[' ∉ before.toList)
    (hafter : ']' ∉ after.toList) :
    parseLabels (before ++ array ++ after) labels.length = some (labels.map trimLabel) := by
  have hall : (labels.map trimLabel).all (· ≠ "") = true := by
    rw [List.all_eq_true]
    intro trimmed htrimmed
    obtain ⟨label, hlabel, rfl⟩ := List.mem_map.mp htrimmed
    exact decide_eq_true (trimLabel_ne_empty (hnames label hlabel))
  rw [parseLabels, bracketed?_append harray hbefore hafter]
  simp only [Option.bind_some, hread, Option.bind_eq_bind, Json.items?, Json.mapM_text?, hall,
    decide_true, Bool.and_self, if_true]

/-! ## Written lists -/

/-- The compact layout of a list starts and ends with its brackets. -/
theorem exists_compact_array (items : List Json) :
    ∃ inner, (Json.compact (.array items)).toList = '[' :: (inner ++ [']']) := by
  rw [Json.compact, String.toList_ofList, Json.write_array]
  exact ⟨_, rfl⟩

/-- So does the indented one. -/
theorem exists_indented_array (items : List Json) :
    ∃ inner, (Json.indented (.array items)).toList = '[' :: (inner ++ [']']) := by
  rw [Json.indented, String.toList_ofList]
  by_cases hitems : items = []
  · rw [hitems, Json.writeIndented]
    exact ⟨[], rfl⟩
  · rw [Json.writeIndented_array 0 hitems, ← List.append_assoc, ← List.append_assoc]
    exact ⟨_, rfl⟩

/-- **Names are recovered**: the names of a list that is written in either layout are found in every
answer that has no opening bracket before the list and no closing one after it. They come in their
order, trimmed and cut to sixty characters, whatever characters are in them. And any answer in which
names are found at all gives as many of them as expected, none of them empty and none longer than
sixty characters. -/
theorem parseLabels_recovers (labels : List String) (before after : String)
    (hnames : ∀ label ∈ labels, trim label ≠ "") (hbefore : '[' ∉ before.toList)
    (hafter : ']' ∉ after.toList) :
    (∀ layout ∈ [Json.compact, Json.indented],
      parseLabels (before ++ layout (.array (labels.map .text)) ++ after) labels.length =
        some (labels.map fun label => truncate (trim label) 60)) ∧
    ∀ text expected found, parseLabels text expected = some found →
      found.length = expected ∧ ∀ label ∈ found, label ≠ "" ∧ label.length ≤ 60 := by
  have hfits : Json.Fits Json.maxDepth (.array (labels.map .text)) := Json.fits_texts _ labels
  refine ⟨fun layout hlayout => ?_, fun text expected found h => ?_⟩
  · rcases List.mem_cons.mp hlayout with rfl | hlayout
    · obtain ⟨inner, hinner⟩ := exists_compact_array (labels.map .text)
      exact parseLabels_of_array hinner (Json.parse?_compact hfits) hnames hbefore hafter
    · obtain rfl := List.mem_singleton.mp hlayout
      obtain ⟨inner, hinner⟩ := exists_indented_array (labels.map .text)
      exact parseLabels_of_array hinner (Json.parse?_indented hfits) hnames hbefore hafter
  · obtain ⟨labels, rfl, hcount, hsome⟩ := parseLabels_eq_some h
    refine ⟨by rw [List.length_map, hcount], fun label hlabel => ⟨hsome label hlabel, ?_⟩⟩
    obtain ⟨label, -, rfl⟩ := List.mem_map.mp hlabel
    exact length_trimLabel_le label

/-- Two names with brackets, a quote and blanks around them, in a friendly answer. -/
theorem parseLabels_recovers_brackets :
    let labels := [" Auth [core] ", "]\"é\\["]
    let before := "Sure ]! Here you go:\n"
    let after := "\nHope that helps [."
    (∀ label ∈ labels, trim label ≠ "") ∧ '[' ∉ before.toList ∧ ']' ∉ after.toList ∧
      (∀ layout ∈ [Json.compact, Json.indented],
        parseLabels (before ++ layout (.array (labels.map .text)) ++ after) labels.length =
          some (labels.map fun label => truncate (trim label) 60)) ∧
      ∀ text expected found, parseLabels text expected = some found →
        found.length = expected ∧ ∀ label ∈ found, label ≠ "" ∧ label.length ≤ 60 := by
  have hnames : ∀ label ∈ [" Auth [core] ", "]\"é\\["], trim label ≠ "" := by decide +kernel
  have hbefore : '[' ∉ "Sure ]! Here you go:\n".toList := by decide +kernel
  have hafter : ']' ∉ "\nHope that helps [.".toList := by decide +kernel
  exact ⟨hnames, hbefore, hafter, parseLabels_recovers _ _ _ hnames hbefore hafter⟩

end CodeAtlas.Navigator
