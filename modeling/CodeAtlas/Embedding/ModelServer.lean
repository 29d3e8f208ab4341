import CodeAtlas.Embedding.Basic
import CodeAtlas.Json.Reader
import CodeAtlas.Json.Writer
import CodeAtlas.Unicode.Case
import CodeAtlas.Text.Basic

/-!
# Model servers

A model server is reached over HTTP. It turns texts into vectors and completes prompts. How a
request travels is not decided here: a `Transport` takes a request and a state of the outside world,
and gives a response or the reason why there is none.

* `ModelServer.provider` — the server as a provider of vectors.
* `ModelServer.complete` — the completion of a prompt, or why there is none.
-/

namespace CodeAtlas

open CodeAtlas.Text

/-- What is sent to a server. -/
structure HttpRequest where
  /-- the address -/
  url : String
  /-- what is posted -/
  body : Json

/-- What a server answers. -/
structure HttpResponse where
  /-- the status code -/
  status : Nat
  /-- the text that comes with it -/
  body : String

/-- How requests travel: the response, or the reason why there is none. -/
abbrev Transport (σ : Type) := HttpRequest → σ → Except String HttpResponse × σ

/-- A transport that never reaches a server. -/
def Transport.unreachable {σ : Type} : Transport σ := fun request s =>
  (.error s!"error sending request for url ({request.url})", s)

/-- What a generator of texts makes of a prompt. -/
inductive Completion where
  /-- a text -/
  | text (value : String)
  /-- nothing, for a reason -/
  | unavailable (reason : String)
  deriving DecidableEq, Inhabited

/-- A server and the model to use on it. -/
structure ModelServer where
  /-- the address, without slashes at its end -/
  url : String
  /-- the model -/
  model : String

/-- The phrases that standard status codes go with. -/
def statusPhrases : List (Nat × String) := [
  (100, "Continue"), (101, "Switching Protocols"), (102, "Processing"), (200, "OK"),
  (201, "Created"), (202, "Accepted"), (203, "Non Authoritative Information"), (204, "No Content"),
  (205, "Reset Content"), (206, "Partial Content"), (207, "Multi-Status"),
  (208, "Already Reported"), (226, "IM Used"), (300, "Multiple Choices"),
  (301, "Moved Permanently"), (302, "Found"), (303, "See Other"), (304, "Not Modified"),
  (305, "Use Proxy"), (307, "Temporary Redirect"), (308, "Permanent Redirect"),
  (400, "Bad Request"), (401, "Unauthorized"), (402, "Payment Required"), (403, "Forbidden"),
  (404, "Not Found"), (405, "Method Not Allowed"), (406, "Not Acceptable"),
  (407, "Proxy Authentication Required"), (408, "Request Timeout"), (409, "Conflict"),
  (410, "Gone"), (411, "Length Required"), (412, "Precondition Failed"),
  (413, "Payload Too Large"), (414, "URI Too Long"), (415, "Unsupported Media Type"),
  (416, "Range Not Satisfiable"), (417, "Expectation Failed"), (418, "I'm a teapot"),
  (421, "Misdirected Request"), (422, "Unprocessable Entity"), (423, "Locked"),
  (424, "Failed Dependency"), (425, "Too Early"), (426, "Upgrade Required"),
  (428, "Precondition Required"), (429, "Too Many Requests"),
  (431, "Request Header Fields Too Large"), (451, "Unavailable For Legal Reasons"),
  (500, "Internal Server Error"), (501, "Not Implemented"), (502, "Bad Gateway"),
  (503, "Service Unavailable"), (504, "Gateway Timeout"), (505, "HTTP Version Not Supported"),
  (506, "Variant Also Negotiates"), (507, "Insufficient Storage"), (508, "Loop Detected"),
  (510, "Not Extended"), (511, "Network Authentication Required")]

/-- A status code with its phrase. -/
def statusText (status : Nat) : String :=
  match statusPhrases.find? (·.1 = status) with
  | some (_, phrase) => s!"{status} {phrase}"
  | none => s!"{status} <unknown status code>"

/-- Whether a status reports success. -/
def isSuccess (status : Nat) : Bool :=
  200 ≤ status && status < 300

namespace ModelServer

/-- A server at an address. -/
def ofUrl (url model : String) : ModelServer :=
  ⟨String.ofList (url.toList.reverse.dropWhile (· = '/')).reverse, model⟩

/-- The phrases by which servers say that a text does not fit into a model's context. -/
def tooLongMarkers : List String :=
  ["context length", "input length", "context window", "too long", "exceeds the context"]

/-- What a failing response means. -/
def classify (response : HttpResponse) : EmbedError :=
  let lower := (Unicode.lowercase response.body).toList
  if tooLongMarkers.any fun marker => occursIn marker.toList lower then
    .tooLong (trim response.body)
  else .provider s!"Ollama API error {response.status}: {trim response.body}"

/-- A vector from a list of values; what is no number counts as zero. -/
def embeddingOf (values : List Json) : Embedding :=
  (values.map fun v => Decimal.singleOfDouble (v.float?.getD 0)).toArray

/-- The vectors that a response holds. -/
def embeddingsOf (response : Json) : Except EmbedError (List Embedding) :=
  match (response.field? "embeddings").bind Json.items? with
  | none => .error (.provider "Invalid Ollama response: missing embeddings array")
  | some rows => rows.mapM fun row =>
    match row.items? with
    | some values => .ok (embeddingOf values)
    | none => .error (.provider "Invalid Ollama response: embedding is not an array")

/-- The vectors that a successful response holds, one for each of `count` texts. -/
def readEmbeddings (count : Nat) (body : String) : Except EmbedError (List Embedding) := do
  match Json.parseRanged? body with
  | none => throw (.provider "Invalid Ollama response: error decoding response body")
  | some response =>
    let vectors ← embeddingsOf response
    if vectors.length = count then return vectors
    throw (.provider s!"Ollama returned {vectors.length} embeddings for {count} inputs")

/-- The request for the vectors of some texts. -/
def embedRequest (server : ModelServer) (texts : List String) : HttpRequest :=
  ⟨server.url ++ "/api/embed",
    .object [("model", .text server.model), ("input", .array (texts.map .text))]⟩

/-- The vectors of some texts. Nothing is sent for none. -/
def embed {σ : Type} (server : ModelServer) (transport : Transport σ) (texts : List String)
    (s : σ) :
    Except EmbedError (List Embedding) × σ :=
  if texts.isEmpty then (.ok [], s)
  else
    match transport (server.embedRequest texts) s with
    | (.error reason, s) =>
      (.error (.provider
        s!"Ollama connection error (is Ollama running at {server.url}?): {reason}"),
        s)
    | (.ok response, s) =>
      if isSuccess response.status then (readEmbeddings texts.length response.body, s)
      else (.error (classify response), s)

/-- The server as a provider of vectors. -/
def provider {σ : Type} (server : ModelServer) (transport : Transport σ) :
    Provider σ Embedding where
  name := server.model
  embed := server.embed transport

/-- The request for the completion of a prompt. -/
def generateRequest (server : ModelServer) (prompt : String) : HttpRequest :=
  ⟨server.url ++ "/api/generate",
    .object [("model", .text server.model), ("prompt", .text prompt), ("stream", .bool false)]⟩

/-- The completion that a response holds. -/
def readCompletion (response : HttpResponse) : Completion :=
  if isSuccess response.status then
    match Json.parseRanged? response.body with
    | none => .unavailable "Invalid Ollama response: error decoding response body"
    | some json =>
      match (json.field? "response").bind Json.text? with
      | some text => .text text
      | none => .unavailable "Ollama response had no text"
  else .unavailable s!"Ollama returned {statusText response.status}: {response.body}"

/-- The completion of a prompt. -/
def complete {σ : Type} (server : ModelServer) (transport : Transport σ) (prompt : String) (s : σ) :
    Completion × σ :=
  match transport (server.generateRequest prompt) s with
  | (.error reason, s) => (.unavailable s!"Ollama not available at {server.url}: {reason}", s)
  | (.ok response, s) => (readCompletion response, s)

end ModelServer

end CodeAtlas
