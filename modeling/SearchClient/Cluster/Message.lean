import SearchClient.Request.Basic

/-!
# Messages to nodes

A request becomes a message once its node is chosen: the node's locator carries its path and
parameters, and its headers are complete. `Message.prepare` makes it or says which part of the
configuration cannot be sent.
-/

set_option autoImplicit false
set_option relaxedAutoImplicit false

namespace SearchClient

/-- What a client proves who it is with. -/
inductive Credentials where
  | basic (username : String) (password : Option String)
  | apiKey (key : String)
  deriving DecidableEq, Repr, Inhabited

/-- Credentials as they may be shown: the secret is hidden. -/
def Credentials.shown : Credentials → String
  | .basic username _ => "Basic(" ++ username ++ ", ***)"
  | .apiKey _ => "ApiKey(***)"

/-- The settings of a client. Times are in nanoseconds. -/
structure Settings where
  requestTimeout : Nat := 60 * 1000000000
  connectTimeout : Nat := 10 * 1000000000
  pingTimeout : Nat := 2 * 1000000000
  deadTimeout : Nat := 60 * 1000000000
  maxDeadTimeout : Nat := 30 * 60 * 1000000000
  /-- Without a number the pool decides. -/
  maxRetries : Option Nat := none
  /-- Without a time the request timeout counts. -/
  maxRetryTimeout : Option Nat := none
  sniffOnStartup : Bool := true
  sniffOnFault : Bool := true
  /-- Without a time, age alone is no reason to ask for the nodes again. -/
  sniffLifespan : Option Nat := none
  disablePings : Bool := false
  compression : Bool := false
  prettyJson : Bool := false
  skipManagerOnly : Bool := true
  credentials : Option Credentials := none
  proxy : Option String := none
  headers : List (String × String) := []
  query : List (String × String) := []
  deriving Repr, Inhabited

/-- A body on its way. A compressed one is compressed once for all attempts. -/
structure Payload where
  content : Text.Bytes
  contentType : String
  compressed : Bool
  deriving DecidableEq, Repr, Inhabited

/-- The payload of a body. -/
def RequestBody.payload (body : RequestBody) (compressed : Bool) : Payload :=
  ⟨body.content, body.contentType, compressed⟩

/-- Headers by name, each once. -/
abbrev Headers := List (String × String)

structure Message where
  method : Method
  url : Url
  headers : Headers
  payload : Option Payload
  timeout : Nat
  credentials : Option Credentials
  deriving Repr, Inhabited

/-- A ping asks for the head of a node's root. -/
def Message.isPing (m : Message) : Bool := m.method == .head && m.url.pathText == "/"

/-- Which part of a configuration cannot be sent. -/
inductive Unsendable where
  | pathless (node : String)
  | headerName (name : String)
  | headerValue (name : String)
  deriving DecidableEq, Repr, Inhabited

def Unsendable.message : Unsendable → String
  | .pathless node => "node url " ++ node ++ " cannot carry a path"
  | .headerName name => "'" ++ name ++ "' is not a valid header name"
  | .headerValue name => "value of header '" ++ name ++ "' is not valid header text"

namespace Message

/-- A header is added; an earlier one of its name is replaced. -/
def addHeader (headers : Headers) (name value : String) : Except Unsendable Headers :=
  match Header.name? name with
  | none => .error (.headerName name)
  | some key =>
    if Header.isValue value then .ok (Json.insertMember key value headers)
    else .error (.headerValue name)

def addHeaders (headers : Headers) : List (String × String) → Except Unsendable Headers
  | [] => .ok headers
  | (name, value) :: rest => do addHeaders (← addHeader headers name value) rest

/-- The headers that a client asks for, those of the settings first. -/
def ownHeaders (settings : Settings) (overrides : Overrides) : Except Unsendable Headers := do
  let headers ← addHeaders [] (settings.headers ++ overrides.headers)
  match overrides.opaqueId with
  | some id => addHeader headers "X-Opaque-Id" id
  | none => .ok headers

/-- The headers about the content of a message and of its answer. -/
def contentHeaders (settings : Settings) (payload : Option Payload) (headers : Headers) :
    Except Unsendable Headers := do
  let headers :=
    if settings.compression then Json.insertMember "accept-encoding" "gzip" headers else headers
  match payload with
  | none => .ok headers
  | some payload =>
    let headers ← addHeader headers "Content-Type" payload.contentType
    .ok
      (if payload.compressed then Json.insertMember "content-encoding" "gzip" headers else headers)

/-- The parameters of a message: those of the settings, those of the request, and the wish for
readable answers unless the request says something about that. -/
def parameters (settings : Settings) (query : List (String × String)) : List (String × String) :=
  let pretty := settings.prettyJson && !query.any (·.1 == "pretty")
  settings.query ++ query ++ if pretty then [("pretty", "true")] else []

/-- The locator of a path on a node. -/
def place (node : Url) (path : RequestPath) : Except Unsendable Url :=
  match path.below node with
  | some url => .ok url
  | none => .error (.pathless node.text)

/-- The message that a node gets. -/
def prepare (settings : Settings) (node : Url) (method : Method) (path : RequestPath)
    (query : List (String × String)) (payload : Option Payload) (overrides : Overrides)
    (timeout : Nat) : Except Unsendable Message := do
  let url ← place node path
  let pairs := parameters settings query
  let url := if pairs.isEmpty then url else url.addPairs pairs
  let headers ← ownHeaders settings overrides
  let headers ← contentHeaders settings payload headers
  .ok { method := method, url := url, headers := headers, payload := payload, timeout := timeout
        credentials := settings.credentials }

end Message

end SearchClient
