import CodeAtlas.Exchange.Fields
import CodeAtlas.Settings.Basic

/-!
# Settings as JSON

* `ofSettings` — all settings as an object.
* `settingsOver` — settings with those that an object names replaced.
-/

namespace CodeAtlas.Exchange

/-- All settings as an object. -/
def ofSettings (s : Settings) : Json := .object [
  ("base_dir", .text s.baseDirectory),
  ("cache_dir", .text s.cacheDirectory),
  ("embeddings_backend", .text s.backend.name),
  ("embeddings_model", .text s.model),
  ("embeddings_model_dir", .ofText? s.modelDirectory),
  ("ollama_url", .text s.serverUrl),
  ("embedding_batch_size", .ofNat s.batchSize),
  ("embedding_timeout_secs", .ofNat s.timeoutSeconds),
  ("embedding_shrink_factor", ofSingle s.shrinkFactor),
  ("embedding_max_shrink_retries", .ofNat s.shrinkRetries),
  ("hash_embedding_dim", .ofNat s.hashDimension),
  ("index_ttl_secs", .ofNat s.freshSeconds),
  ("max_document_chars", .ofNat s.documentChars),
  ("max_file_bytes", .ofNat s.fileBytes),
  ("ignored_prefixes", ofTexts s.ignored),
  ("rank_semantic_weight", ofSingle s.semanticWeight),
  ("rank_keyword_weight", ofSingle s.keywordWeight),
  ("keyword_coverage_weight", ofSingle s.coverageWeight),
  ("keyword_symbol_weight", ofSingle s.symbolWeight),
  ("keyword_phrase_boost", ofSingle s.phraseBoost),
  ("callsite_semantic_weight", ofSingle s.callSemanticWeight),
  ("callsite_keyword_weight", ofSingle s.callKeywordWeight),
  ("navigator_max_depth", .ofNat s.treeDepth),
  ("navigator_max_clusters", .ofNat s.treeClusters),
  ("navigator_leaf_size", .ofNat s.leafSize),
  ("labels_enabled", .bool s.labels),
  ("label_model", .text s.labelModel),
  ("watch_mode", .bool s.watch),
  ("watch_debounce_ms", .ofNat s.debounceMillis),
  ("watch_batch_size", .ofNat s.refreshBatch),
  ("restore_max_points", .ofNat s.restorePoints)]

/-- The backend of a name. -/
def backend? (name : String) : Option Backend :=
  [Backend.ollama, .fastEmbed, .hash].find? fun b => b.name = name

/-- Settings with those that an object names replaced. -/
def settingsOver (s : Settings) (j : Json) : Settings where
  baseDirectory := (text? j "base_dir").getD s.baseDirectory
  cacheDirectory := (text? j "cache_dir").getD s.cacheDirectory
  backend := ((text? j "embeddings_backend").bind backend?).getD s.backend
  model := (text? j "embeddings_model").getD s.model
  modelDirectory := (text? j "embeddings_model_dir").or s.modelDirectory
  serverUrl := (text? j "ollama_url").getD s.serverUrl
  batchSize := natural j "embedding_batch_size" s.batchSize
  timeoutSeconds := natural j "embedding_timeout_secs" s.timeoutSeconds
  shrinkFactor := singleOr j "embedding_shrink_factor" s.shrinkFactor
  shrinkRetries := natural j "embedding_max_shrink_retries" s.shrinkRetries
  hashDimension := natural j "hash_embedding_dim" s.hashDimension
  freshSeconds := natural j "index_ttl_secs" s.freshSeconds
  documentChars := natural j "max_document_chars" s.documentChars
  fileBytes := natural j "max_file_bytes" s.fileBytes
  ignored := ((field? j "ignored_prefixes").bind Json.items?).elim s.ignored textsOf
  semanticWeight := singleOr j "rank_semantic_weight" s.semanticWeight
  keywordWeight := singleOr j "rank_keyword_weight" s.keywordWeight
  coverageWeight := singleOr j "keyword_coverage_weight" s.coverageWeight
  symbolWeight := singleOr j "keyword_symbol_weight" s.symbolWeight
  phraseBoost := singleOr j "keyword_phrase_boost" s.phraseBoost
  callSemanticWeight := singleOr j "callsite_semantic_weight" s.callSemanticWeight
  callKeywordWeight := singleOr j "callsite_keyword_weight" s.callKeywordWeight
  treeDepth := natural j "navigator_max_depth" s.treeDepth
  treeClusters := natural j "navigator_max_clusters" s.treeClusters
  leafSize := natural j "navigator_leaf_size" s.leafSize
  labels := (truth? j "labels_enabled").getD s.labels
  labelModel := (text? j "label_model").getD s.labelModel
  watch := (truth? j "watch_mode").getD s.watch
  debounceMillis := natural j "watch_debounce_ms" s.debounceMillis
  refreshBatch := natural j "watch_batch_size" s.refreshBatch
  restorePoints := natural j "restore_max_points" s.restorePoints

end CodeAtlas.Exchange
