import SearchClient.Cluster.Send
import SearchClient.Document.Shape
import SearchClient.Request.Bulk
import SearchClient.Request.Query

/-!
# Endpoints

An endpoint is an operation that the cluster offers: its routes, its method, what a call has to give
and may give, and the shape of its answer. A `Call` gathers what is given; `Endpoint.request` makes
a request of it, and `Endpoint.invoke` sends it and reads the answer.
-/

set_option autoImplicit false
set_option relaxedAutoImplicit false

namespace SearchClient

/-- The kind of value that a parameter takes. -/
inductive ParameterKind where
  /-- A text, or a number written out. -/
  | text
  | string
  | boolean
  | integer
  | float
  | span
  | names
  | word (v : Vocabulary)
  deriving Repr, Inhabited

/-- Where a value goes: into the path, or among the parameters. -/
inductive Place where
  | route (key : String)
  | query (key : String)
  deriving DecidableEq, Repr, Inhabited

/-- A value that a call can give. -/
structure Setter where
  name : String
  kind : ParameterKind
  place : Place
  deriving Repr, Inhabited

namespace Setter

/-- A value for a place of the path. -/
def route (key : String) (kind : ParameterKind) : Setter := ⟨key, kind, .route key⟩

/-- A parameter. -/
def query (key : String) (kind : ParameterKind) : Setter := ⟨key, kind, .query key⟩

/-- A parameter that goes by another name on its way. -/
def renamed (name key : String) (kind : ParameterKind) : Setter := ⟨name, kind, .query key⟩

end Setter

/-- How the method of a call is found: it is always the same, it depends on whether there is a body,
or on whether the caller has chosen an id. -/
inductive Verb where
  | always (method : Method)
  | getOrPost
  | putWithId
  deriving Repr, Inhabited

/-- What the body of a call is made of. -/
inductive Content where
  | nothing
  | body (written : Except Json.Fault RequestBody)
  | operations (ops : List BulkOperation)
  | aliasActions (actions : List Json)
  deriving Inhabited

/-- How the answer to a call is read. -/
inductive AnswerKind where
  | document (shape : Shape)
  /-- A status of its own tells that there is no such document, unless there is an error. -/
  | documentOrMissing (shape : Shape)
  /-- One more status counts as success. -/
  | documentAllowing (status : Nat) (shape : Shape)
  | existence
  | text
  deriving Inhabited

/-- What is given for one call. -/
structure Call where
  route : RouteValues := .empty
  query : Query := .empty
  content : Content := .nothing
  overrides : Option Overrides := none

structure Endpoint where
  name : String
  table : RouteTable
  verb : Verb
  /-- What a call has to give. -/
  needs : List Setter := []
  /-- What a call may give. -/
  takes : List Setter := []
  /-- Whether a call may give a document as its body. -/
  hasBody : Bool := false
  /-- What a call is before anything is given. -/
  blank : Call := {}
  answer : AnswerKind

namespace Call

/-- A value is given. -/
def set (c : Call) (place : Place) (value : Parameter) : Call :=
  match place with
  | .route key => { c with route := c.route.set key value.render }
  | .query key => { c with query := c.query.set key value }

/-- The body is given. One that cannot be written is found out when the call is made. -/
def setBody (c : Call) (written : Except Json.Fault RequestBody) : Call :=
  { c with content := .body written }

/-- More writes are given. -/
def push (c : Call) (ops : List BulkOperation) : Call :=
  match c.content with
  | .operations earlier => { c with content := .operations (earlier ++ ops) }
  | _ => { c with content := .operations ops }

/-- A change of aliases is given. -/
def act (c : Call) (action : Json) : Call :=
  let action := action.sorted
  match c.content with
  | .aliasActions earlier => { c with content := .aliasActions (earlier ++ [action]) }
  | _ => { c with content := .aliasActions [action] }

/-- A change of aliases about one index and one alias. -/
def aliasChange (kind index name : String) : Json :=
  .object [(kind, .object [("alias", .string name), ("index", .string index)])]

/-- An alias is to stand for an index. -/
def addAlias (c : Call) (index name : String) : Call := c.act (aliasChange "add" index name)

/-- An alias is no longer to stand for an index. -/
def removeAlias (c : Call) (index name : String) : Call := c.act (aliasChange "remove" index name)

/-- An index is to be removed. -/
def removeIndex (c : Call) (index : String) : Call :=
  c.act (.object [("remove_index", .object [("index", .string index)])])

/-- Results are sorted by a field. -/
def sortBy (c : Call) (field order : String) : Call :=
  c.set (.query "sort") (.names (Names.parse (field ++ ":" ++ order)))

/-- The body as a parameter, with its type. -/
def source (c : Call) (text : String) : Call :=
  (c.set (.query "source") (.text text)).set (.query "source_content_type")
    (.text "application/json")

/-- One more status counts as success. -/
def allow (c : Call) (status : Nat) : Call :=
  let o := c.overrides.getD {}
  if o.allows status then { c with overrides := some o }
  else { c with overrides := some { o with allowedStatuses := o.allowedStatuses ++ [status] } }

/-- What every call may give. -/
def commonSetters : List Setter :=
  [.query "pretty" .boolean, .query "human" .boolean, .query "error_trace" .boolean,
    .query "filter_path" .names]

end Call

/-- The body that there is, or why it cannot be written. -/
def Content.body? : Content → Option (Except Json.Fault RequestBody)
  | nothing => none
  | body written => some written
  | operations ops => some ((BulkOperation.render ops).map .lines)
  | aliasActions actions => some (.ok (.ofJson (.object [("actions", .array actions)])))

namespace Endpoint

/-- The setter of a name. -/
def setter? (e : Endpoint) (name : String) : Option Setter :=
  (e.takes ++ Call.commonSetters).find? (·.name == name)

/-- The method of a call. -/
def method (e : Endpoint) (c : Call) : Method :=
  match e.verb with
  | .always method => method
  | .getOrPost => if c.content.body?.isSome then .post else .get
  | .putWithId => if (c.route.get? "id").isSome then .put else .post

/-- The request of a call. Its route is looked at before its body. -/
def request (e : Endpoint) (c : Call) : Except Failure Request :=
  match e.table.resolve c.route with
  | .error mismatch => .error (.route mismatch)
  | .ok segments =>
    match c.content.body? with
    | some (.error fault) => .error (.body fault)
    | body? =>
      .ok { method := e.method c, path := .values segments, query := c.query.pairs
            body := body?.bind Except.toOption, overrides := c.overrides.getD {} }

variable [Url.Domain.Spelling]

/-- A call is made; a status that it does not accept is a failure. -/
def perform (s : Settings) (e : Endpoint) (c : Call) : Program (Except Failure Response) :=
  match e.request c with
  | .error failure => return .error failure
  | .ok request => do
    match ← send s request with
    | .error failure => return .error failure
    | .ok response =>
      if response.success || request.overrides.allows response.status then return .ok response
      else return .error response.toFailure

/-- A call asks whether something is there. -/
def probe (s : Settings) (e : Endpoint) (c : Call) : Program (Except Failure Bool) :=
  match e.request c with
  | .error failure => return .error failure
  | .ok request => do
    match ← send s request with
    | .error failure => return .error failure
    | .ok response =>
      if response.success then return .ok true
      else if response.status = 404 then return .ok false
      else return .error response.toFailure

/-- An answer that may say that there is no such document: without an error it is one all the
same. -/
def foundOrMissing (response : Response) : Except Failure Response :=
  if response.status = 404 ∧ response.serverError?.isSome then .error response.toFailure
  else .ok response

/-- A call is made and its answer read. -/
def invoke (s : Settings) (e : Endpoint) (c : Call) : Program (Except Failure Document) := do
  match e.answer with
  | .document shape => return (← perform s e c).bind (Response.read shape.read)
  | .documentOrMissing shape =>
    return (← perform s e (c.allow 404)).bind fun response ↦
      (foundOrMissing response).bind (Response.read shape.read)
  | .documentAllowing status shape =>
    return (← perform s e (c.allow status)).bind (Response.read shape.read)
  | .existence => return (← probe s e c).map fun there ↦ .json (.bool there)
  | .text => return (← perform s e c).map fun response ↦ .json (.string response.text)

/-! ### Descriptions -/

/-- The route templates of an operation. -/
def routes (operation : String) (templates : List (List RoutePiece)) : RouteTable :=
  ⟨operation, templates.map RouteTemplate.of⟩

/-- A place for a value. -/
def slot (key : String) : RoutePiece := .value key

def timeout : Setter := .query "timeout" .span

def managerTimeout : Setter := .query "cluster_manager_timeout" .span

def waitForShards : Setter := .query "wait_for_active_shards" .string

def expandWildcards : Setter := .query "expand_wildcards" (.word .expandWildcards)

def ignoreUnavailable : Setter := .query "ignore_unavailable" .boolean

/-- What is to be done about index names that stand for several indices or none. -/
def wildcards : List Setter :=
  [ignoreUnavailable, .query "allow_no_indices" .boolean, expandWildcards]

def boolean (key : String) : Setter := .query key .boolean

def string (key : String) : Setter := .query key .string

def integer (key : String) : Setter := .query key .integer

def names (key : String) : Setter := .query key .names

/-- The parts of sources that an answer tells. -/
def sourceFilters : List Setter :=
  [.renamed "source_includes" "_source_includes" .names,
    .renamed "source_excludes" "_source_excludes" .names]

end Endpoint

end SearchClient
