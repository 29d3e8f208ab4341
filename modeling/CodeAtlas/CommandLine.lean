/-!
# The command line

The program takes no arguments but two questions, each with three spellings, that may stand anywhere
after the program's name. Help wins over the version.

* `CommandLine.answer?` — what is printed instead of starting, if anything is asked.
-/

namespace CodeAtlas

/-- The version of the program. -/
def version : String := "0.3.0"

namespace CommandLine

/-- Whether the arguments ask for help. The first one is the program's name. -/
def wantsHelp (arguments : List String) : Bool :=
  arguments.tail.any (· ∈ ["-h", "--help", "help"])

/-- Whether the arguments ask for the version. -/
def wantsVersion (arguments : List String) : Bool :=
  arguments.tail.any (· ∈ ["-V", "--version", "version"])

/-- The lines of the help text. -/
def helpLines : List String := [
  "semantic-code-navigator",
  "",
  "MCP server over stdio for hybrid semantic search and clustered navigation of a repository.",
  "",
  "Usage:",
  "  semantic-code-navigator",
  "  semantic-code-navigator --help",
  "  semantic-code-navigator --version",
  "",
  "Required env:",
  "  BASE_DIR=/absolute/path/to/repo",
  "",
  "Common env (defaults shown):",
  "  CACHE_DIR=./.semnav                   (resolved under BASE_DIR if relative)",
  "  EMBEDDINGS_BACKEND=ollama|fastembed|hash  (default: ollama)",
  "  EMBEDDINGS_MODEL=nomic-embed-text     (fastembed: BAAI/bge-small-en-v1.5)",
  "  EMBEDDINGS_MODEL_DIR=./.semnav/models  (fastembed only)",
  "  OLLAMA_URL=http://localhost:11434",
  "  EMBEDDING_BATCH_SIZE=8                (clamped to 1..=32)",
  "  EMBEDDING_TIMEOUT_SECS=60",
  "  EMBEDDING_SHRINK_FACTOR=0.75",
  "  EMBEDDING_MAX_SHRINK_RETRIES=4",
  "  HASH_EMBEDDING_DIM=256",
  "  INDEX_TTL_SECS=30",
  "  MAX_DOCUMENT_CHARS, MAX_FILE_BYTES",
  "  IGNORED_PREFIXES=.git,node_modules,target,...  (comma-separated)",
  "",
  "Ranking env:",
  "  RANK_SEMANTIC_WEIGHT, RANK_KEYWORD_WEIGHT",
  "  KEYWORD_COVERAGE_WEIGHT, KEYWORD_SYMBOL_WEIGHT, KEYWORD_PHRASE_BOOST",
  "  CALLSITE_SEMANTIC_WEIGHT, CALLSITE_KEYWORD_WEIGHT",
  "",
  "Navigator env:",
  "  NAVIGATOR_MAX_DEPTH=3  NAVIGATOR_MAX_CLUSTERS=8  NAVIGATOR_LEAF_SIZE=8",
  "  LABELS_ENABLED=true    LABEL_MODEL=llama3.2",
  "",
  "Change tracking and restore points:",
  "  WATCH_MODE=true  WATCH_DEBOUNCE_MS=500  WATCH_BATCH_SIZE=32",
  "  RESTORE_MAX_POINTS=20",
  "",
  "Notes:",
  "  - Set EMBEDDINGS_BACKEND=hash to use deterministic hashing (no model).",
  "  - Logs go to stderr; tune with RUST_LOG.",
  "",
  "Tools:",
  "  semantic_search, search_identifiers, find_call_sites, navigate, refresh_index,",
  "  index_stats, create_restore_point, list_restore_points, restore"]

/-- The help text. -/
def helpText : String :=
  String.join (helpLines.map (· ++ "\n"))

/-- What is printed instead of starting. -/
def answer? (arguments : List String) : Option String :=
  if wantsHelp arguments then some helpText
  else if wantsVersion arguments then some (version ++ "\n")
  else none

end CommandLine

end CodeAtlas
