import CodeAtlas.CommandLine
import CodeAtlas.Json.Reader
import CodeAtlas.Session.Tools
import CodeAtlas.Settings.Environment

/-!
# The server

The server offers the tools of a session over JSON-RPC: a request is an object with a method,
parameters and an id, and its answer has the same id with a result or an error. A tool that fails is
no error of the protocol; its result says so. Messages without an id are notifications and are not
answered.

* `Server.launch` — the session that an environment asks for.
* `Server.handle` — the result of a request.
* `Server.answer?` — the answer to a message.
-/

namespace CodeAtlas

/-- Why a server cannot be opened. -/
inductive ServerError where
  /-- the settings are wrong -/
  | settings (cause : SettingsError)
  /-- there is no provider -/
  | provider (cause : ProviderError)

/-- The wording of an error. -/
def ServerError.message : ServerError → String
  | .settings cause => cause.message
  | .provider cause => cause.message

/-- The diagnostic of a server that cannot be opened. -/
def ServerError.diagnostic (e : ServerError) : String :=
  "Error: Internal \x7b description: " ++ Text.Quoted.quote e.message ++ " \x7d"

/-- Why a request has no result. -/
inductive RequestError where
  /-- the method is not known -/
  | unknownMethod (name : String)
  /-- the parameters are wrong -/
  | badParameters (detail : String)
  /-- the message is no request -/
  | badMessage
  deriving DecidableEq

/-- The number of an error. -/
def RequestError.code : RequestError → Int
  | .unknownMethod _ => -32601
  | .badParameters _ => -32602
  | .badMessage => -32700

/-- The wording of an error. -/
def RequestError.message : RequestError → String
  | .unknownMethod name => s!"Method not found: {name}"
  | .badParameters detail => s!"Invalid params: {detail}"
  | .badMessage => "Parse error"

namespace Server

variable {σ ℓ : Type}

/-- The session that an environment asks for. -/
def launch (env : Environment) (d : Disk) (rules : SkipRules) (parser : Parser)
    (vectors : Transport σ) (labels : Transport ℓ) : Except ServerError (Session σ ℓ) :=
  match Settings.ofEnvironment env d with
  | .error e => .error (.settings e)
  | .ok settings =>
    match Session.ofSettings settings rules parser vectors labels with
    | .error e => .error (.provider e)
    | .ok session => .ok session

/-- The version of the protocol. -/
def protocolVersion : String := "2025-11-25"

/-- What the server says of itself. -/
def information : Json :=
  .object [("name", .text "semantic-code-navigator"), ("version", .text version),
    ("title", .text "Semantic Code Navigator"),
    ("description", .text <| "Hybrid semantic search, call sites and clustered navigation " ++
      "over a local repository")]

/-- The result of opening a conversation. -/
def greeting : Json :=
  .object [("protocolVersion", .text protocolVersion),
    ("capabilities", .object [("tools", .object [])]), ("serverInfo", information)]

/-- A text as the content of a result. -/
def content (text : String) : Json :=
  .array [.object [("type", .text "text"), ("text", .text text)]]

/-- The result of running a tool. -/
def toolResult : Except ToolError ToolAnswer → Json
  | .ok answer => .object [("content", content answer.text)]
  | .error e => .object [("content", content e.message), ("isError", .bool true)]

/-- The fields of the arguments in the parameters of a tool request. -/
def argumentFields (params : Json) : List (String × Json) :=
  match params.field? "arguments" with
  | some (.object fields) => fields
  | _ => []

/-- Runs the tool that parameters ask for. -/
def callTool (session : Session σ ℓ) (params : Json) (s : Session.State σ ℓ) :
    Except RequestError Json × Session.State σ ℓ :=
  match (params.field? "name").bind Json.text? with
  | none => (.error (.badParameters "missing tool name"), s)
  | some name =>
    let (answer, s) := session.call name (argumentFields params) s
    (.ok (toolResult answer), s)

/-- The result of a request. -/
def handle (session : Session σ ℓ) (method : String) (params : Json) (s : Session.State σ ℓ) :
    Except RequestError Json × Session.State σ ℓ :=
  match method with
  | "initialize" => (.ok greeting, s)
  | "ping" => (.ok (.object []), s)
  | "tools/list" => (.ok (.object [("tools", .array (Tool.Name.all.map Tool.Name.schema))]), s)
  | "tools/call" => callTool session params s
  | _ => (.error (.unknownMethod method), s)

/-! ## Messages -/

/-- An answer to the request of an id. -/
def envelope (id : Json) (result : Except RequestError Json) : Json :=
  .object ([("jsonrpc", .text "2.0"), ("id", id)] ++
    match result with
    | .ok json => [("result", json)]
    | .error e =>
      [("error", .object [("code", .ofInt e.code), ("message", .text e.message)])])

/-- The answer to a message, if it needs one. -/
def answer? (session : Session σ ℓ) (line : String) (s : Session.State σ ℓ) :
    Option String × Session.State σ ℓ :=
  match Json.parse? line with
  | none => (some (envelope .null (.error .badMessage)).compact, s)
  | some message =>
    match message.field? "id", (message.field? "method").bind Json.text? with
    | some id, some method =>
      let (result, s) := handle session method ((message.field? "params").getD (.object [])) s
      (some (envelope id result).compact, s)
    | _, _ => (none, s)

end Server

end CodeAtlas
