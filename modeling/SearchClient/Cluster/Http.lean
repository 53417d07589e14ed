import SearchClient.Cluster.Program

/-!
# Messages over HTTP

A message goes over a network, where it may be refused, lost, or answered. An answer whose content
is compressed is opened before anybody sees it, and one that cannot be opened is a fault.
-/

set_option autoImplicit false
set_option relaxedAutoImplicit false

namespace SearchClient.Http

/-- The program as it names itself to nodes. -/
def userAgent : String := "osc/0.1.0 (rust)"

/-- What becomes of a message on the network. -/
inductive Contact where
  | refused
  | silent
  | broken
  | answered (reply : Reply)
  deriving Inhabited

/-- The words about a request that could not be sent, with the locator, which does not show who
asks. -/
def sendingError (url : Url) : String :=
  let authority := url.authority.map fun a ↦ { a with username := "", password := none }
  "error sending request for url (" ++ { url with authority := authority }.text ++ ")"

/-- The value of a header. -/
def header? (headers : Headers) (name : String) : Option String :=
  (headers.find? (·.1 == name)).map (·.2)

/-- Whether a content is compressed. -/
def isCompressed (headers : Headers) : Bool :=
  match header? headers "content-encoding" with
  | some encoding => encoding.toList.map Char.toLower == "gzip".toList
  | none => false

/-- A reply with its content opened. -/
def opened (inflate : Text.Bytes → Option Text.Bytes) (reply : Reply) : Except LinkFault Reply :=
  if isCompressed reply.headers then
    match inflate reply.body with
    | some body => .ok { reply with body := body }
    | none => .error .inflate
  else .ok reply

/-- Why a message cannot even set out: its credentials are no header text, or its scheme is none
of the two that there are. -/
def unfit? (m : Message) : Option LinkFault :=
  let badKey :=
    match m.credentials with
    | some (.apiKey key) => !Header.isValue key
    | _ => false
  if badKey then some (.http "builder error")
  else if m.url.scheme ≠ "http" ∧ m.url.scheme ≠ "https" then
    some (.http ("builder error for url (" ++ m.url.text ++ ")"))
  else none

/-- What a client hears of a message. -/
def outcome (inflate : Text.Bytes → Option Text.Bytes) (m : Message) :
    Contact → Except LinkFault Reply
  | .refused => .error (.connect (sendingError m.url))
  | .silent => .error .timeout
  | .broken => .error (.http (sendingError m.url))
  | .answered reply => opened inflate reply

/-- Messages are carried over a network. One that is never answered takes its time. -/
def link {σ : Type} (inflate : Text.Bytes → Option Text.Bytes)
    (network : Message → σ → Contact × σ) : Link σ where
  carry m s :=
    match unfit? m with
    | some fault => (.error fault, 0, s)
    | none =>
      let (contact, s) := network m s
      let took :=
        match contact with
        | .silent => m.timeout
        | _ => 0
      (outcome inflate m contact, took, s)

/-- A network on which nobody listens. -/
def nobody : Message → Unit → Contact × Unit := fun _ s ↦ (.refused, s)

/-- Whether a text names a proxy. Without a scheme it is a host of the web. -/
def acceptsProxy [Url.Domain.Spelling] (proxy : String) : Bool :=
  let hasHost (url : Url) : Bool := url.hostText ≠ ""
  let asWeb : Bool :=
    match Url.parse ("http://" ++ proxy) with
    | .ok url => hasHost url
    | .error _ => false
  match Url.parse proxy with
  | .ok url => hasHost url || asWeb
  | .error .noScheme => asWeb
  | .error _ => false

end SearchClient.Http
