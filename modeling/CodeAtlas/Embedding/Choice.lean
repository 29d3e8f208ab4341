import CodeAtlas.Embedding.Batching
import CodeAtlas.Embedding.HashModel
import CodeAtlas.Embedding.ModelServer
import CodeAtlas.Settings.Basic

/-!
# The choice of a provider

Settings name a backend and a model; this module turns them into a provider. Models that would run
inside the process are known by name, but there is nothing here to run them.
-/

namespace CodeAtlas

/-- Why settings give no provider. -/
inductive ProviderError where
  /-- the model is not known -/
  | unsupported (model : String)
  /-- the model cannot be run -/
  | notRunnable (model : String)
  deriving DecidableEq

/-- The models that are known by name. -/
def localModels : List String :=
  ["BAAI/bge-base-en-v1.5", "BAAI/bge-small-en-v1.5", "sentence-transformers/all-MiniLM-L6-v2",
    "jinaai/jina-embeddings-v2-base-code"]

/-- The wording of an error. -/
def ProviderError.message : ProviderError → String
  | .unsupported model =>
    s!"Unsupported model for FastEmbed: {model}. Supported: " ++ ", ".intercalate localModels
  | .notRunnable model => s!"Failed to initialize FastEmbed: no runtime for {model}"

/-- The provider that settings ask for. -/
def Settings.provider {σ : Type} (s : Settings) (transport : Transport σ) :
    Except ProviderError (Provider σ Embedding) :=
  match s.backend with
  | .hash => .ok (HashModel.ofDimension s.hashDimension none).provider
  | .ollama => .ok ((ModelServer.ofUrl s.serverUrl s.model).provider transport)
  | .fastEmbed =>
    if s.model ∈ localModels then .error (.notRunnable s.model)
    else .error (.unsupported s.model)

/-- How settings send texts to a provider. -/
def Settings.batching (s : Settings) : Batching :=
  ⟨Settings.clampBatch s.batchSize, ⟨s.shrinkFactor, s.shrinkRetries⟩, Settings.clampBatch_pos _⟩

end CodeAtlas
