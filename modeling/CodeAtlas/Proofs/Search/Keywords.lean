import CodeAtlas.Search.Files
import CodeAtlas.Proofs.Text.Tokens

/-!
# What the keywords of a file come from

Setup: the text that is searched for words is the path, the header, the names of the symbols and the
content of a file with spaces between them, so its tokens are those of these fields and no others
(`Document.mem_keywordTokens`). A query therefore hits the text as often as it hits the union of the
fields (`tokensOfAll`), and never less often than any of them alone.

* **`keyword_hits_from_fields`** — the tokens of two texts are united by a space between them, and
  what follows for a file and a query: the hits of the keyword text are those of its fields, and a
  symbol whose name matches is always among them.
-/

namespace CodeAtlas

open CodeAtlas.Text

variable {token : String} {texts : List String}

/-- The union of the tokens of several texts. -/
def tokensOfAll (texts : List String) : TokenSet :=
  texts.foldr (fun text rest => tokenSet text ∪ rest) ∅

/-- A union has the tokens of each text. -/
theorem mem_tokensOfAll : token ∈ tokensOfAll texts ↔ ∃ text ∈ texts, token ∈ tokenSet text := by
  induction texts with
  | nil => simp [tokensOfAll]
  | cons text texts ih =>
    rw [tokensOfAll, List.foldr_cons, Std.TreeSet.mem_union_iff, List.exists_mem_cons_iff, ← ih]
    rfl

/-! ## Hits -/

namespace Query

variable {q : Query} {found others : TokenSet} {entry : SymbolEntry} {entries : List SymbolEntry}

/-- More tokens, no fewer hits. -/
theorem hits_mono (h : ∀ token ∈ found, token ∈ others) : q.hits found ≤ q.hits others := by
  rw [hits, hits, ← List.countP_eq_length_filter, ← List.countP_eq_length_filter]
  exact List.countP_mono_left fun token _ => h token

/-- The same tokens, as many hits. -/
theorem hits_congr (h : found.Equiv others) : q.hits found = q.hits others :=
  Nat.le_antisymm (hits_mono fun _ => h.mem_iff.mp) (hits_mono fun _ => h.mem_iff.mpr)

/-- There is a hit exactly if the query has a token of the set. -/
theorem hits_pos_iff : 0 < q.hits found ↔ ∃ token ∈ q.tokens, token ∈ found := by
  rw [hits, List.length_pos_iff_exists_mem]
  simp only [List.mem_filter, Std.TreeSet.mem_toList, Std.TreeSet.contains_iff_mem]

/-- Some token of a set passes a test. -/
theorem any_tokens_iff {test : String → Bool} :
    found.any test = true ↔ ∃ token ∈ found, test token = true := by
  have hlist : found.any test = found.toList.any test := by
    -- the search is a loop that stops at the first token that passes
    have hloop : found.any test = Id.run (do
        for token in found do
          if test token then return true
        return false) := rfl
    rw [hloop, Std.TreeSet.forIn_eq_forIn_toList]
    induction found.toList with
    | nil => rfl
    | cons token tokens ih =>
      rw [List.any_cons, ← ih, List.forIn_cons]
      cases test token <;> rfl
  rw [hlist, List.any_eq_true]
  simp only [Std.TreeSet.mem_toList]

/-- A matching symbol is one whose name the query hits. -/
theorem mem_matchedSymbols :
    entry ∈ q.matchedSymbols entries ↔ entry ∈ entries ∧ 0 < q.hits (tokenSet entry.name) := by
  rw [matchedSymbols, List.mem_filter, any_tokens_iff, hits_pos_iff]
  simp only [Std.TreeSet.contains_iff_mem, and_comm]

end Query

/-! ## The fields of a file -/

namespace Document

/-- The texts that the keyword text is made of. -/
def fields (d : Document) : List String :=
  d.path :: d.header :: d.symbols ++ [d.content]

/-- **The keyword text has the tokens of the fields** and no others. -/
theorem tokenSet_keywordText (d : Document) :
    (tokenSet d.keywordText).Equiv (tokensOfAll d.fields) := by
  have htokens : tokens d.keywordText = d.fields.flatMap tokens := by
    rw [keywordText, tokens_intercalate]
    simp only [fields, List.flatMap_cons, List.cons_append, List.flatMap_append, tokens_intercalate]
  refine Std.TreeSet.Equiv.of_forall_mem_iff fun token => ?_
  rw [mem_tokensOfAll, mem_tokenSet, htokens, List.mem_flatMap]
  simp only [mem_tokenSet]

theorem mem_fields_of_mem_symbols (d : Document) {name : String} (h : name ∈ d.symbols) :
    name ∈ d.fields :=
  List.mem_cons_of_mem _ (List.mem_cons_of_mem _ (List.mem_append_left _ h))

end Document

/-- **Where the keywords of a source file come from.** -/
theorem keyword_hits_from_fields :
    (∀ a b : String, (tokenSet (a ++ " " ++ b)).Equiv (tokenSet a ∪ tokenSet b)) ∧
      ∀ (path : String) (analysis : Analysis) (maxChars : Nat) (q : Query),
        let d := Document.ofAnalysis path analysis maxChars
        let hits := q.hits (tokenSet d.keywordText)
        hits = q.hits (tokensOfAll d.fields) ∧
          (∀ field ∈ d.fields, q.hits (tokenSet field) ≤ hits) ∧
          q.hits (tokensOfAll d.symbols) ≤ hits ∧
          (∀ entry ∈ q.matchedSymbols d.entries, ∃ token ∈ q.tokens,
            token ∈ tokenSet entry.name ∧ token ∈ tokenSet d.keywordText) ∧
          (q.matchedSymbols d.entries ≠ [] → 0 < hits) := by
  refine ⟨tokenSet_append_space, fun path analysis maxChars q => ?_⟩
  intro d hits
  have hfield : ∀ field ∈ d.fields, ∀ token ∈ tokenSet field, token ∈ tokenSet d.keywordText :=
    fun field hfield token htoken =>
      d.tokenSet_keywordText.mem_iff.mpr (mem_tokensOfAll.mpr ⟨field, hfield, htoken⟩)
  have hname : ∀ name ∈ d.symbols, name ∈ d.fields := fun name h => d.mem_fields_of_mem_symbols h
  have hmatched : ∀ entry ∈ q.matchedSymbols d.entries, ∃ token ∈ q.tokens,
      token ∈ tokenSet entry.name ∧ token ∈ tokenSet d.keywordText := by
    intro entry hentry
    obtain ⟨hmem, hhit⟩ := Query.mem_matchedSymbols.mp hentry
    obtain ⟨token, hquery, htoken⟩ := Query.hits_pos_iff.mp hhit
    have hsymbol : entry.name ∈ d.symbols := List.mem_map_of_mem hmem
    exact ⟨token, hquery, htoken, hfield _ (hname _ hsymbol) token htoken⟩
  refine ⟨Query.hits_congr d.tokenSet_keywordText, fun field h => Query.hits_mono (hfield field h),
    Query.hits_mono fun token htoken => ?_, hmatched, fun hne => ?_⟩
  · obtain ⟨name, hmem, hin⟩ := mem_tokensOfAll.mp htoken
    exact hfield name (hname name hmem) token hin
  · obtain ⟨entry, hentry⟩ := List.exists_mem_of_ne_nil _ hne
    obtain ⟨token, hquery, -, htoken⟩ := hmatched entry hentry
    exact Query.hits_pos_iff.mpr ⟨token, hquery, htoken⟩

/-- A file whose only function has a word of the query in its name. -/
theorem keyword_hits_verifyToken :
    let analysis : Analysis :=
      ⟨"Checks callers.", [.mk "verifyToken" .function 1 3 "fn verifyToken()" []], 3⟩
    let d := Document.ofAnalysis "src/auth.rs" analysis 100
    let q := Query.ofText "token"
    "Checks callers." ∈ d.fields ∧
      q.hits (tokenSet "Checks callers.") ≤ q.hits (tokenSet d.keywordText) ∧
      q.matchedSymbols d.entries ≠ [] ∧ 0 < q.hits (tokenSet d.keywordText) := by
  intro analysis d q
  have hheader : "Checks callers." ∈ d.fields := by
    simp [d, Document.fields, Document.ofAnalysis, analysis]
  have hmatched : q.matchedSymbols d.entries ≠ [] := by
    have hquery : "token" ∈ q.tokens := mem_tokenSet.mpr (by decide)
    have hname : "token" ∈ tokenSet "verifyToken" := mem_tokenSet.mpr (by decide)
    have hentry :
        (⟨"verifyToken", .function, 1, 3, "fn verifyToken()"⟩ : SymbolEntry) ∈ d.entries := by
      simp [d, analysis, Document.ofAnalysis, Symbol.flatten, Symbol.flattenUnder, Symbol.entry,
        Symbol.name, Symbol.kind, Symbol.line, Symbol.endLine, Symbol.signature]
    have hhit := Query.hits_pos_iff.mpr ⟨"token", hquery, hname⟩
    exact List.ne_nil_of_mem (Query.mem_matchedSymbols.mpr ⟨hentry, hhit⟩)
  obtain ⟨-, hfile⟩ := keyword_hits_from_fields
  obtain ⟨-, hfields, -, -, hpos⟩ := hfile "src/auth.rs" analysis 100 q
  exact ⟨hheader, hfields _ hheader, hmatched, hpos hmatched⟩

end CodeAtlas
